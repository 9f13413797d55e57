import Stencil.Proofs.Evaluation.Agreeing
import Stencil.Proofs.Evaluation.Escaping

/-!
# What discovery decides

Discovery that comes to its end takes the files that declare an annotation out
of the output, and no others. So what was decided about a file before makes a
difference only if the file does not declare the annotation, and no operation
decides anything about a file that declares neither schemas nor data values.
The decisions that operations leave are compared here with the ones they
started from, and with those of another run of the same phase.

That a file declares an annotation is a property of the file if the parser
always answers the same about it, whatever world it is in.

## Main definitions

* `Declares` — a file declares an annotation.
* `Collaborators.Reparses` — the parser always answers the same.
* `Marks.SameBut` — decisions that differ about some files only.
* `Phase.LooksFor` — the files that a phase takes out of the output.

## Main results

* `PhaseRun.after_marks` — what a phase decides.
* `Operation.after_sameBut` — an operation decides nothing about files that
  declare neither schemas nor data values.
* `PhaseRun.both_sameBut` — after a phase that succeeds, nothing decided before
  about the files that it looks for makes a difference.
-/

namespace Stencil

variable {σ : Type}

/-- Whether a file declares an annotation: it is a template YAML file, and one
of its documents carries the annotation, which stands nowhere further down. -/
def Declares (c : Collaborators σ) (name : Text) (f : File) : Prop :=
  f.IsYamlTemplate ∧ ∃ docs w w', Action.apply (c.parse f) w = (.ok docs, w') ∧
    Documents.firstMisplaced name docs = none ∧ docs.any (·.mark.carries name) = true

/-- Whether the parser answers the same about a file in every world. -/
def Collaborators.Reparses (c : Collaborators σ) : Prop :=
  ∀ f w w', (Action.apply (c.parse f) w).1 = (Action.apply (c.parse f) w').1

/-- Deterministic collaborators answer the same about a file. -/
theorem Collaborators.Deterministic.reparses {c : Collaborators σ} {busy : σ → σ → Prop}
    (h : c.Deterministic (fun _ _ => True) busy) : c.Reparses :=
  fun f w w' => (h.parse f w w' trivial).answer_eq

/-- A recorded parser answers what the parser does. -/
private theorem recorded_parse (c : Collaborators σ) (f : File) (v : Recorded σ) :
    (Action.apply (c.recorded.parse f) v).1 = (Action.apply (c.parse f) v.world).1 :=
  congrArg Prod.fst (Action.recorded_apply ..)

theorem Collaborators.Reparses.recorded {c : Collaborators σ} (h : c.Reparses) :
    c.recorded.Reparses := by
  intro f v v'
  rw [recorded_parse, recorded_parse]
  exact h f v.world v'.world

theorem Declares.recorded {c : Collaborators σ} {name : Text} {f : File} (h : Declares c name f) :
    Declares c.recorded name f := by
  obtain ⟨candidate, docs, w, w', parse, above, present⟩ := h
  refine ⟨candidate, docs, ⟨w, []⟩, _, Prod.ext ?_ rfl, above, present⟩
  rw [recorded_parse, parse]

namespace Discovery

variable {c : Collaborators σ} {name : Text} {files found parsed : List Located}
  {r : Except Failure Unit} {w w' : σ}

/-- What is found declares the annotation. -/
theorem found_declares (h : Discovery c name files w r found parsed w') :
    ∀ g ∈ found, Declares c name g.file := by
  induction h with
  | nil => exact List.forall_mem_nil _
  | skipped _ _ ih => exact ih
  | unparsed => exact List.forall_mem_nil _
  | misplaced => exact List.forall_mem_nil _
  | passed _ _ _ _ _ ih => exact ih
  | found candidate parse above present _ ih =>
      exact List.forall_mem_cons.mpr ⟨⟨candidate, _, _, _, parse, above, present⟩, ih⟩

/-- **Discovery that comes to its end** finds all files that declare the
annotation. -/
theorem complete (reparses : c.Reparses) (h : Discovery c name files w r found parsed w')
    (hr : r = .ok ()) : ∀ g ∈ files, Declares c name g.file → g ∈ found := by
  induction h with
  | nil => exact List.forall_mem_nil _
  | skipped other _ ih =>
      refine List.forall_mem_cons.mpr ⟨?_, ih hr⟩
      rintro ⟨candidate, -⟩
      exact absurd candidate other
  | unparsed => cases hr
  | misplaced => cases hr
  | @passed f fs found parsed docs r w w₁ w₂ candidate parse above absent _ ih =>
      refine List.forall_mem_cons.mpr ⟨?_, ih hr⟩
      rintro ⟨-, docs', v, v', parse', -, present⟩
      have hdocs := reparses f.file w v
      rw [parse, parse'] at hdocs
      cases hdocs
      cases absent.symm.trans present
  | found _ _ _ _ _ ih =>
      refine List.forall_mem_cons.mpr ⟨fun _ => List.mem_cons_self .., fun g hg hdeclares => ?_⟩
      exact List.mem_cons_of_mem _ (ih hr g hg hdeclares)

end Discovery

/-! ## Decisions -/

namespace Marks

theorem decision_set (m : Marks) (f g : File) (output : Option Bool) :
    (m.set g output).decision f = if f.id = g.id then output else m.decision f := by
  unfold decision set
  rw [List.lookup_cons]
  by_cases hid : f.id = g.id
  · simp [hid]
  · rw [beq_eq_false_iff_ne.mpr hid, if_neg hid]

/-- Taking files out of the output decides about these files only. -/
theorem decision_claimAll (m : Marks) (files : List Located) (f : File) :
    (m.claimAll files).decision f =
      if ∃ g ∈ files, g.file.id = f.id then some false else m.decision f := by
  induction files generalizing m with
  | nil => simp [claimAll]
  | cons g files ih =>
      show ((m.set g.file (some false)).claimAll files).decision f = _
      rw [ih, decision_set]
      by_cases hrest : ∃ h ∈ files, h.file.id = f.id
      · rw [if_pos hrest, if_pos]
        obtain ⟨h, hh, hid⟩ := hrest
        exact ⟨h, List.mem_cons_of_mem _ hh, hid⟩
      · by_cases hid : f.id = g.file.id
        · rw [if_neg hrest, if_pos hid, if_pos ⟨g, List.mem_cons_self .., hid.symm⟩]
        · rw [if_neg hrest, if_neg hid, if_neg]
          rintro ⟨h, hh, hids⟩
          rcases List.mem_cons.mp hh with rfl | hh
          · exact hid hids.symm
          · exact hrest ⟨h, hh, hids⟩

/-- Whether decisions are the same about some files, but for those of a
sort. -/
def SameBut (files : List Located) (D : File → Prop) (m m' : Marks) : Prop :=
  ∀ g ∈ files, ¬D g.file → m.decision g.file = m'.decision g.file

end Marks

/-- Whether files of the same identity are the same file. -/
def Identified (files : List Located) : Prop :=
  ∀ f ∈ files, ∀ g ∈ files, f.file.id = g.file.id → f.file = g.file

instance (files : List Located) : Decidable (Identified files) :=
  inferInstanceAs (Decidable (∀ f ∈ files, ∀ g ∈ files, f.file.id = g.file.id → f.file = g.file))

theorem Identified.mono {files others : List Located} (h : Identified files)
    (sub : others ⊆ files) : Identified others :=
  fun f hf g hg => h f (sub hf) g (sub hg)

namespace Marks.SameBut

variable {files found found' : List Located} {D D' : File → Prop} {m m' m₀ : Marks}

theorem mono (h : SameBut files D m m') {others : List Located} (sub : others ⊆ files)
    (weaker : ∀ f, D f → D' f) : SameBut others D' m m' :=
  fun g hg other => h g (sub hg) fun hD => other (weaker _ hD)

/-- Nothing is decided about a file that is not of the sort of those that are
taken out of the output. -/
private theorem decision_claimAll_of_not (identified : Identified files) (sub : found ⊆ files)
    (sort : ∀ g ∈ found, D g.file) {f : Located} (mem : f ∈ files) (other : ¬D f.file) :
    (m.claimAll found).decision f.file = m.decision f.file := by
  rw [decision_claimAll, if_neg]
  rintro ⟨g, hg, hid⟩
  have hfile : g.file = f.file := identified g (sub hg) f mem hid
  exact other (hfile ▸ sort g hg)

/-- **Files of a sort** are taken out of the output on one side only. -/
theorem claimAll_right (h : SameBut files D m₀ m) (identified : Identified files)
    (sub : found ⊆ files) (sort : ∀ g ∈ found, D g.file) : SameBut files D m₀ (m.claimAll found) :=
  fun g hg other =>
    (h g hg other).trans (decision_claimAll_of_not identified sub sort hg other).symm

/-- **All files of a sort** are taken out of the output on both sides: what
was decided about them before does not matter any more. -/
theorem claimAll_both (h : SameBut files (fun f => D f ∨ D' f) m m')
    (identified : Identified files) (sub : found ⊆ files) (sub' : found' ⊆ files)
    (sort : ∀ g ∈ found, D g.file) (sort' : ∀ g ∈ found', D g.file)
    (all : ∀ g ∈ files, D g.file → g ∈ found) (all' : ∀ g ∈ files, D g.file → g ∈ found') :
    SameBut files D' (m.claimAll found) (m'.claimAll found') := by
  intro g hg other
  by_cases hD : D g.file
  · rw [decision_claimAll, decision_claimAll, if_pos ⟨g, all g hg hD, rfl⟩,
      if_pos ⟨g, all' g hg hD, rfl⟩]
  · rw [decision_claimAll_of_not identified sub sort hg hD,
      decision_claimAll_of_not identified sub' sort' hg hD]
    exact h g hg (not_or_intro hD other)

end Marks.SameBut

/-! ## Phases -/

/-- The annotation that a phase looks for, if it does look for one. -/
def Phase.annotation? : Phase → Option Text
  | .schemas _ => some AnnotationName.schemaMatch
  | .values _ _ => some AnnotationName.dataValues
  | .eval _ _ _ => none

/-- The files that a phase takes out of the output. -/
def Phase.LooksFor (c : Collaborators σ) : Phase → File → Prop
  | .schemas _ => Declares c AnnotationName.schemaMatch
  | .values _ _ => Declares c AnnotationName.dataValues
  | .eval _ _ _ => fun _ => False

theorem Phase.looksFor_iff {c : Collaborators σ} {phase : Phase} {f : File} :
    phase.LooksFor c f ↔ ∃ name, phase.annotation? = some name ∧ Declares c name f := by
  cases phase <;> simp [LooksFor, annotation?]

/-- The files that some phase takes out of the output. -/
def DeclaresAny (c : Collaborators σ) (f : File) : Prop :=
  Declares c AnnotationName.schemaMatch f ∨ Declares c AnnotationName.dataValues f

theorem DeclaresAny.recorded {c : Collaborators σ} {f : File} (h : DeclaresAny c f) :
    DeclaresAny c.recorded f := h.imp Declares.recorded Declares.recorded

theorem Phase.LooksFor.declaresAny {c : Collaborators σ} {phase : Phase} {f : File}
    (h : phase.LooksFor c f) : DeclaresAny c f := by
  cases phase with
  | schemas => exact .inl h
  | values => exact .inr h
  | eval => exact h.elim

/-- Discovery leaves the decisions that its course says. -/
theorem Discovery.leaves {l : Loader σ} {name : Text} {found parsed : List Located}
    {r : Except Failure Unit} {m : Marks} {w w' : σ}
    (h : Discovery l.collaborators name l.library.accessible w r found parsed w') :
    (l.discoverFiles name).Leaves (fun m₀ w₀ => m₀ = m ∧ w₀ = w) (· = m.claimAll found) := by
  rintro s ⟨rfl, rfl⟩
  exact (h.phase_yields s.marks).apply_eq.2.1

/-- If the work that follows discovery is done, discovery came to its end. -/
private theorem Discovery.ended {α : Type} {l : Loader σ} {name : Text}
    {found parsed : List Located} {r : Except Failure Unit} {s : Session σ} {w' : σ}
    (h : Discovery l.collaborators name l.library.accessible s.world r found parsed w')
    {f : List Located → Run σ α}
    (work : ((l.discoverFiles name >>= f).apply s).1.map (fun _ => ()) = .ok ()) :
    r = .ok () := by
  cases r with
  | ok => rfl
  | error x =>
      have hfails := Run.Yields.bind_error (f := f) (h.phase_yields s.marks)
      rw [hfails.apply_eq.1] at work
      cases work

namespace PhaseRun

/-- **What a phase that discovers decides**: it takes the files that its
discovery finds out of the output, whatever comes of them later. If it does its
work, its discovery came to its end. -/
theorem discovery (p : PhaseRun σ) {name : Text} (h : p.phase.annotation? = some name) :
    ∃ r found parsed w', Discovery p.loader.collaborators name p.loader.library.accessible
        p.session.world r found parsed w' ∧
      p.after.marks = p.session.marks.claimAll found ∧ (p.work = .ok () → r = .ok ()) := by
  obtain ⟨l, phase, s⟩ := p
  obtain ⟨r, found, parsed, w', course⟩ :=
    Discovery.total l.collaborators name l.library.accessible s.world
  refine ⟨r, found, parsed, w', course, ?_⟩
  cases phase with
  | schemas overlays =>
      cases h
      exact ⟨l.schemas_leaves overlays course.leaves s ⟨rfl, rfl⟩, course.ended⟩
  | values overlays schema =>
      cases h
      exact ⟨l.values_leaves overlays schema course.leaves s ⟨rfl, rfl⟩, course.ended⟩
  | eval values libraryValues librarySchemas => cases h

/-- A phase that does not discover decides nothing. -/
theorem marks_of_annotation_none (p : PhaseRun σ) (h : p.phase.annotation? = none) :
    p.after.marks = p.session.marks := by
  obtain ⟨l, phase, s⟩ := p
  cases phase with
  | schemas overlays => cases h
  | values overlays schema => cases h
  | eval values libraryValues librarySchemas =>
      exact l.eval_keeps values libraryValues librarySchemas (P := (· = s.marks)) s rfl

/-- **What a phase decides**: it takes files that it looks for out of the
output, and all of them if it does its work. -/
theorem after_marks (p : PhaseRun σ) (reparses : p.loader.collaborators.Reparses) :
    ∃ found, found ⊆ p.loader.library.accessible ∧
      (∀ g ∈ found, p.phase.LooksFor p.loader.collaborators g.file) ∧
      (p.work = .ok () → ∀ g ∈ p.loader.library.accessible,
        p.phase.LooksFor p.loader.collaborators g.file → g ∈ found) ∧
      p.after.marks = p.session.marks.claimAll found := by
  cases hphase : p.phase.annotation? with
  | none =>
      refine ⟨[], List.nil_subset _, List.forall_mem_nil _, fun _ _ _ looks => ?_,
        p.marks_of_annotation_none hphase⟩
      obtain ⟨name, hname, -⟩ := Phase.looksFor_iff.mp looks
      cases hphase.symm.trans hname
  | some name =>
      obtain ⟨r, found, parsed, w', course, hmarks, ended⟩ := p.discovery hphase
      refine ⟨found, course.found_sublist.subset, fun g hg => ?_, fun work g hg looks => ?_, hmarks⟩
      · exact Phase.looksFor_iff.mpr ⟨name, hphase, course.found_declares g hg⟩
      · obtain ⟨other, hother, hdeclares⟩ := Phase.looksFor_iff.mp looks
        cases hphase.symm.trans hother
        exact course.complete reparses (ended work) g hg hdeclares

variable {files : List Located} {m : Marks}

/-- A phase decides nothing about files that declare neither schemas nor data
values. -/
theorem after_sameBut {p : PhaseRun σ} (reparses : p.loader.collaborators.Reparses)
    (identified : Identified files) (sub : p.loader.library.accessible ⊆ files)
    (h : m.SameBut files (DeclaresAny p.loader.collaborators) p.session.marks) :
    m.SameBut files (DeclaresAny p.loader.collaborators) p.after.marks := by
  obtain ⟨found, hsub, looks, -, hmarks⟩ := p.after_marks reparses
  rw [hmarks]
  exact h.claimAll_right identified (List.Subset.trans hsub sub) fun g hg =>
    (looks g hg).declaresAny

/-- **A phase that succeeds** from two sessions: what was decided before about
the files that it looks for makes no difference any more. -/
theorem both_sameBut {l : Loader σ} (phase : Phase) {s s' s₁ s₁' : Session σ} {D : File → Prop}
    (reparses : l.collaborators.Reparses) (identified : Identified l.library.accessible)
    (success : (PhaseRun.mk l phase s).ending = .ok (.ok ()))
    (success' : (PhaseRun.mk l phase s').ending = .ok (.ok ()))
    (after : (PhaseRun.mk l phase s).after = s₁) (after' : (PhaseRun.mk l phase s').after = s₁')
    (h : s.marks.SameBut l.library.accessible (fun f => phase.LooksFor l.collaborators f ∨ D f)
      s'.marks) :
    s₁.marks.SameBut l.library.accessible D s₁'.marks := by
  subst after after'
  obtain ⟨found, sub, looks, all, hmarks⟩ := (PhaseRun.mk l phase s).after_marks reparses
  obtain ⟨found', sub', looks', all', hmarks'⟩ := (PhaseRun.mk l phase s').after_marks reparses
  rw [hmarks, hmarks']
  exact h.claimAll_both identified sub sub' looks looks' (all (work_of_ending success))
    (all' (work_of_ending success'))

end PhaseRun

/-- Phases one after another keep what each of them keeps. -/
private theorem Chain.keeps {P : Marks → Prop} {s s' : Session σ} {ps : List (PhaseRun σ)}
    (h : Chain s ps s') (step : ∀ p ∈ ps, P p.session.marks → P p.after.marks)
    (start : P s.marks) : P s'.marks := by
  induction h with
  | nil marks => exact marks ▸ start
  | cons marks _ _ ih =>
      obtain ⟨first, others⟩ := List.forall_mem_cons.mp step
      exact ih others (first (marks ▸ start))

/-- **An operation decides nothing** about files that declare neither schemas
nor data values. -/
theorem Operation.after_sameBut {l : Loader σ} (reparses : l.collaborators.Reparses)
    {files : List Located} (identified : Identified files) (sub : l.library.accessible ⊆ files)
    (op : Operation) {m : Marks} {s : Session σ}
    (h : m.SameBut files (DeclaresAny l.collaborators) s.marks) :
    m.SameBut files (DeclaresAny l.collaborators) (op.after l s).marks := by
  have step : ∀ p ∈ op.phases l s, m.SameBut files (DeclaresAny l.collaborators) p.session.marks →
      m.SameBut files (DeclaresAny l.collaborators) p.after.marks := by
    intro p hp
    obtain rfl := loader_of_mem_phases hp
    exact PhaseRun.after_sameBut reparses identified sub
  cases op with
  | phase p => exact step ⟨l, p, s⟩ (List.mem_singleton_self _) h
  | evaluate schemaOverlays valuesOverlays =>
      exact (evaluatePhases_chain l schemaOverlays valuesOverlays s).keeps step h

end Stencil
