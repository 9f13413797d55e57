import Stencil.Proofs.Evaluation.Repeating

/-!
# How long decisions on output last

Which files are output is the only thing that operations on a tree decide and
that later ones go by, whatever library they are run on. It is decided in one
direction only. A phase that discovers takes files out of the output, those
that it finds before it ends or fails, and evaluating files decides nothing; so
through all phases of all operations, a file is output or not as it was at the
start until some phase finds it, and from then on it is not.

The state of a history after some of its phases is made of what each phase
leaves, and each phase starts with what the one before it left. The step is
what one phase decides about one file; the run is an induction over the phases.

## Main definitions

* `decisionsAfter` — the decisions after some phases.
* `Loader.history` — the phases of operations on libraries of a tree.
* `PhaseRun.Finds` — the discovery of a phase comes to its end.

## Main results

* `PhaseRun.decides` — the step: what a phase decides about a file.
* `Linked.decides`, `Linked.isForOutput` — the run: what several phases decide
  about it.
* `decisions_last` — how decisions change in a history, and how they do not.
-/

namespace Stencil

variable {σ : Type}

/-! ## Phases one after another -/

/-- The decisions after some phases, if there were those of `m` before. -/
def decisionsAfter (m : Marks) : List (PhaseRun σ) → Marks
  | [] => m
  | p :: ps => decisionsAfter p.after.marks ps

theorem decisionsAfter_append (m : Marks) (ps qs : List (PhaseRun σ)) :
    decisionsAfter m (ps ++ qs) = decisionsAfter (decisionsAfter m ps) qs := by
  induction ps generalizing m with
  | nil => rfl
  | cons p ps ih => exact ih p.after.marks

/-- Whether each of some phases starts with the decisions that the one before
it leaves. -/
def Linked : Marks → List (PhaseRun σ) → Prop
  | _, [] => True
  | m, p :: ps => p.session.marks = m ∧ Linked p.after.marks ps

theorem Chain.linked {s s' : Session σ} {ps : List (PhaseRun σ)} (h : Chain s ps s') :
    Linked s.marks ps ∧ s'.marks = decisionsAfter s.marks ps := by
  induction h with
  | nil marks _ => exact ⟨trivial, marks⟩
  | cons marks _ _ ih => exact ⟨⟨marks, ih.1⟩, ih.2⟩

namespace Linked

variable {m : Marks} {ps qs : List (PhaseRun σ)}

theorem append (h : Linked m (ps ++ qs)) : Linked m ps ∧ Linked (decisionsAfter m ps) qs := by
  induction ps generalizing m with
  | nil => exact ⟨trivial, h⟩
  | cons p ps ih =>
      obtain ⟨marks, hrest⟩ := h
      obtain ⟨hps, hqs⟩ := ih hrest
      exact ⟨⟨marks, hps⟩, hqs⟩

/-- What each of several phases keeps, all of them keep. -/
theorem keeps {P : Marks → Prop} (h : Linked m ps)
    (step : ∀ p ∈ ps, P p.session.marks → P p.after.marks) (start : P m) :
    P (decisionsAfter m ps) := by
  induction ps generalizing m with
  | nil => exact start
  | cons p ps ih =>
      obtain ⟨marks, hrest⟩ := h
      obtain ⟨first, others⟩ := List.forall_mem_cons.mp step
      exact ih hrest others (first (marks ▸ start))

end Linked

/-! ## One phase -/

/-- What discovery finds, it claims: it gets to the file and finds the
annotation, whether or not it fails later. -/
theorem Discovery.claims_of_found {c : Collaborators σ} {name : Text}
    {files found parsed : List Located} {r : Except Failure Unit} {w w' : σ}
    (h : Discovery c name files w r found parsed w') :
    ∀ g ∈ found, Claims c name files w g.file := by
  have split : ∀ {docs : List Document}, Documents.firstMisplaced name docs = none →
      Documents.split name docs =
        .ok (docs.filter (·.mark.carries name), docs.filter fun d => !d.mark.carries name) := by
    intro docs above
    rw [Documents.split_eq, above]
  induction h with
  | nil => exact List.forall_mem_nil _
  | skipped other _ ih => exact fun g hg => .later (.skipped other) (ih g hg)
  | unparsed => exact List.forall_mem_nil _
  | misplaced => exact List.forall_mem_nil _
  | passed candidate parse above _ _ ih =>
      exact fun g hg => .later (.parsed candidate parse (split above)) (ih g hg)
  | @found f fs found parsed docs r w w₁ w₂ candidate parse above present _ ih =>
      have carries : docs.filter (·.mark.carries name) ≠ [] := by
        obtain ⟨d, hd, hcarries⟩ := List.any_eq_true.mp present
        exact List.ne_nil_of_mem (List.mem_filter.mpr ⟨hd, hcarries⟩)
      refine List.forall_mem_cons.mpr ⟨.here candidate parse (split above) carries, fun g hg => ?_⟩
      exact .later (.parsed candidate parse (split above)) (ih g hg)

namespace PhaseRun

/-- What the discovery of a phase claims, the phase claims. -/
private theorem claims_of_annotation {p : PhaseRun σ} {name : Text} {f : File}
    (hphase : p.phase.annotation? = some name)
    (h : Stencil.Claims p.loader.collaborators name p.loader.library.accessible
      p.session.world f) : p.Claims f := by
  obtain ⟨l, phase, s⟩ := p
  cases phase <;> cases hphase <;> exact h

/-- Whether the discovery of a phase comes to its end and finds some files. -/
def Finds (p : PhaseRun σ) (found : List Located) : Prop :=
  ∃ name, p.phase.annotation? = some name ∧
    ((p.loader.discoverFiles name).apply p.session).1 = .ok found

/-- **What a phase decides about a file**: nothing, or that it is not output if
the phase claims it, and then the file declares what the phase looks for. -/
theorem decides (p : PhaseRun σ) {files : List Located} (identified : Identified files)
    (sub : p.loader.library.accessible ⊆ files) {g : Located} (mem : g ∈ files) :
    p.after.marks.decision g.file = p.session.marks.decision g.file ∨
      p.after.marks.decision g.file = some false ∧ p.Claims g.file ∧
        p.phase.LooksFor p.loader.collaborators g.file := by
  cases hphase : p.phase.annotation? with
  | none => exact .inl (by rw [p.marks_of_annotation_none hphase])
  | some name =>
      obtain ⟨r, found, parsed, w', course, hmarks, -⟩ := p.discovery hphase
      rw [hmarks, Marks.decision_claimAll]
      by_cases hfound : ∃ f ∈ found, f.file.id = g.file.id
      · rw [if_pos hfound]
        obtain ⟨f, hf, hid⟩ := hfound
        have hfile : f.file = g.file :=
          identified f (sub (course.found_sublist.subset hf)) g mem hid
        have hclaims : p.Claims g.file :=
          hfile ▸ claims_of_annotation hphase (course.claims_of_found f hf)
        have hdeclares : Declares p.loader.collaborators name g.file :=
          hfile ▸ course.found_declares f hf
        exact .inr ⟨rfl, hclaims, Phase.looksFor_iff.mpr ⟨name, hphase, hdeclares⟩⟩
      · rw [if_neg hfound]
        exact .inl rfl

/-- What the discovery of a phase finds is out of the output after the
phase. -/
theorem Finds.off {p : PhaseRun σ} {found : List Located} (h : p.Finds found) :
    ∀ g ∈ found, p.after.marks.Off g.file := by
  obtain ⟨name, hphase, hanswer⟩ := h
  obtain ⟨r, found', parsed, w', course, hmarks, -⟩ := p.discovery hphase
  rw [(course.phase_yields p.session.marks).apply_eq.1] at hanswer
  cases r with
  | error x => cases hanswer
  | ok u =>
      cases hanswer
      intro g hg
      rw [Marks.Off, hmarks, Marks.decision_claimAll, if_pos ⟨g, hg, rfl⟩]

end PhaseRun

/-! ## Several phases -/

namespace Linked

variable {m : Marks} {ps : List (PhaseRun σ)}

/-- **What several phases decide about a file**: nothing, or that it is not
output if one of them claims it. -/
theorem decides (h : Linked m ps) {files : List Located} (identified : Identified files)
    (sub : ∀ p ∈ ps, p.loader.library.accessible ⊆ files) {g : Located} (mem : g ∈ files) :
    (decisionsAfter m ps).decision g.file = m.decision g.file ∨
      (decisionsAfter m ps).decision g.file = some false ∧
        ∃ p ∈ ps, p.Claims g.file ∧ p.phase.LooksFor p.loader.collaborators g.file := by
  refine h.keeps (P := fun m' => m'.decision g.file = m.decision g.file ∨
    m'.decision g.file = some false ∧
      ∃ p ∈ ps, p.Claims g.file ∧ p.phase.LooksFor p.loader.collaborators g.file) ?_ (.inl rfl)
  intro p hp before
  rcases p.decides identified (sub p hp) mem with same | ⟨off, claims, looks⟩
  · rw [same]
    exact before
  · exact .inr ⟨off, p, hp, claims, looks⟩

/-- **What several phases do to the output**: a file is output as it was, or not
output if one of them claims it. -/
theorem isForOutput (h : Linked m ps) {files : List Located} (identified : Identified files)
    (sub : ∀ p ∈ ps, p.loader.library.accessible ⊆ files) {g : Located} (mem : g ∈ files) :
    g.file.isForOutput (decisionsAfter m ps) = g.file.isForOutput m ∨
      g.file.isForOutput (decisionsAfter m ps) = false ∧
        ∃ p ∈ ps, p.Claims g.file ∧ p.phase.LooksFor p.loader.collaborators g.file := by
  rcases h.decides identified sub mem with same | ⟨off, claimed⟩
  · exact .inl (congrArg g.file.isRendered same)
  · exact .inr ⟨Marks.Off.isForOutput off, claimed⟩

/-- A last phase that discovers nothing changes nothing. -/
theorem decisionsAfter_idle {p : PhaseRun σ} (h : Linked m (ps ++ [p]))
    (idle : p.phase.annotation? = none) :
    decisionsAfter m (ps ++ [p]) = decisionsAfter m ps := by
  obtain ⟨-, hstart, -⟩ := h.append
  rw [decisionsAfter_append, ← hstart]
  exact p.marks_of_annotation_none idle

/-- What the discovery of a phase finds is out of the output after all
phases. -/
theorem off_of_finds (h : Linked m ps) {p : PhaseRun σ} (mem : p ∈ ps) {found : List Located}
    (finds : p.Finds found) : ∀ g ∈ found, (decisionsAfter m ps).Off g.file := by
  intro g hg
  obtain ⟨before, after, rfl⟩ := List.append_of_mem mem
  obtain ⟨-, -, hafter⟩ := h.append
  rw [decisionsAfter_append]
  exact hafter.keeps (P := (·.Off g.file)) (fun q _ => q.off_after) (finds.off g hg)

end Linked

/-! ## Histories of a tree -/

/-- The phases that operations on libraries go through, one operation after
another. -/
def Loader.history (l : Loader σ) (ops : List (Library × Operation)) (s : Session σ) :
    List (PhaseRun σ) :=
  Stencil.history (ops.map fun o => (l.forLibrary o.1, o.2)) s

/-- A phase of a history is one of a loader that an operation is run on. -/
theorem exists_of_mem_history {ops : List (Loader σ × Operation)} {s : Session σ}
    {p : PhaseRun σ} (h : p ∈ history ops s) : ∃ o ∈ ops, p.loader = o.1 := by
  induction ops generalizing s with
  | nil => cases h
  | cons first ops ih =>
      obtain ⟨l, op⟩ := first
      rw [history] at h
      rcases List.mem_append.mp h with h | h
      · exact ⟨(l, op), List.mem_cons_self .., Operation.loader_of_mem_phases h⟩
      · obtain ⟨o, ho, hloader⟩ := ih h
        exact ⟨o, List.mem_cons_of_mem _ ho, hloader⟩

namespace Loader

variable {l : Loader σ} {ops : List (Library × Operation)} {s : Session σ}

theorem loader_of_mem_history {p : PhaseRun σ} (h : p ∈ l.history ops s) :
    ∃ o ∈ ops, p.loader = l.forLibrary o.1 := by
  obtain ⟨_, hmem, hloader⟩ := exists_of_mem_history h
  obtain ⟨o, ho, rfl⟩ := List.mem_map.mp hmem
  exact ⟨o, ho, hloader⟩

/-- The phases of a history are linked, up to what its operations leave. -/
theorem history_linked (l : Loader σ) (ops : List (Library × Operation)) (s : Session σ) :
    Linked s.marks (l.history ops s) ∧
      (l.afterAll ops s).marks = decisionsAfter s.marks (l.history ops s) := by
  have hchain := history_chain (ops.map fun o => (l.forLibrary o.1, o.2)) s
  rw [List.foldl_map] at hchain
  exact hchain.linked

end Loader

/-- **How decisions on output change.** Whatever operations are run on
libraries of a tree, in any order and whether or not they succeed: at every
moment between two phases, each file of the tree is output as it was at the
start or not output; if it is not as it was, an earlier phase has claimed it, as
a template YAML file that declares what the phase looks for, schemas or data
values; and if it is not output, it never is again.
Evaluating files changes nothing, and what a discovery that comes to its end
finds is not output at any later moment. -/
theorem decisions_last (l : Loader σ) (identified : Identified l.context.root.all)
    (ops : List (Library × Operation)) (within : ∀ o ∈ ops, o.1.Within l.context.root)
    (s : Session σ) (done between rest : List (PhaseRun σ))
    (run : l.history ops s = done ++ between ++ rest) :
    let now := decisionsAfter s.marks done
    let later := decisionsAfter s.marks (done ++ between)
    (∀ g ∈ l.context.root.all,
      (g.file.isForOutput now = g.file.isForOutput s.marks ∨ g.file.isForOutput now = false) ∧
      (g.file.isForOutput now ≠ g.file.isForOutput s.marks →
        ∃ p ∈ done, p.Claims g.file ∧ p.phase.LooksFor l.collaborators g.file) ∧
      (g.file.isForOutput now = false → g.file.isForOutput later = false)) ∧
    (∀ before values libraryValues librarySchemas l' s', done = before ++
      [⟨l', .eval values libraryValues librarySchemas, s'⟩] →
        now = decisionsAfter s.marks before) ∧
    (∀ p ∈ done, ∀ found, p.Finds found → ∀ g ∈ found,
      g.file.isForOutput now = false ∧ g.file.isForOutput later = false) ∧
    (l.afterAll ops s).marks = decisionsAfter s.marks (l.history ops s) := by
  intro now later
  obtain ⟨linked, last⟩ := l.history_linked ops s
  rw [run] at linked
  obtain ⟨hlater, -⟩ := linked.append
  obtain ⟨hnow, hbetween⟩ := hlater.append
  have loaders : ∀ p ∈ done ++ between, ∃ o ∈ ops, p.loader = l.forLibrary o.1 := by
    intro p hp
    have mem : p ∈ l.history ops s := by
      rw [run]
      exact List.mem_append_left _ hp
    exact Loader.loader_of_mem_history mem
  have sub : ∀ p ∈ done ++ between, p.loader.library.accessible ⊆ l.context.root.all := by
    intro p hp
    obtain ⟨o, ho, hloader⟩ := loaders p hp
    rw [hloader]
    exact (within o ho).accessible_sublist.subset
  have collaborators : ∀ p ∈ done, p.loader.collaborators = l.collaborators := by
    intro p hp
    obtain ⟨o, -, hloader⟩ := loaders p (List.mem_append_left _ hp)
    rw [hloader]
    rfl
  refine ⟨fun g hg => ?_, ?_, fun p hp found finds g hg => ⟨?_, ?_⟩, last⟩
  · have output := hnow.isForOutput identified (fun p hp => sub p (List.mem_append_left _ hp)) hg
    have outputLater :=
      hbetween.isForOutput identified (fun p hp => sub p (List.mem_append_right _ hp)) hg
    rw [← decisionsAfter_append] at outputLater
    refine ⟨output.imp id And.left, fun changed => ?_, fun off => ?_⟩
    · obtain ⟨-, p, hp, claims, looks⟩ := output.resolve_left changed
      rw [collaborators p hp] at looks
      exact ⟨p, hp, claims, looks⟩
    · rcases outputLater with same | ⟨offLater, -⟩
      · exact same.trans off
      · exact offLater
  · intro before values libraryValues librarySchemas l' s' hdone
    have hnow' := hdone ▸ hnow
    show decisionsAfter s.marks done = _
    rw [hdone]
    exact hnow'.decisionsAfter_idle rfl
  · exact (hnow.off_of_finds hp finds g hg).isForOutput
  · exact (hlater.off_of_finds (List.mem_append_left _ hp) finds g hg).isForOutput

/-- A private library with a file that declares a schema before one in which the
annotation is misplaced, and a file at the root that declares data values. The
discovery of schemas is aborted after the first file, which is out of the output
from then on; the discovery of values comes to its end; and the evaluation of
files changes neither. -/
theorem decisions_last_aborted :
    let declared : File := ⟨0, "a.yml", [], .yaml, true, none, none⟩
    let broken : File := ⟨1, "b.yml", [], .yaml, true, none, none⟩
    let settings : File := ⟨2, "values.yml", [], .yaml, true, none, none⟩
    let config : File := ⟨3, "config.yml", [], .yaml, true, none, none⟩
    let inner : Library := ⟨"_lib", "_lib", [declared, broken], []⟩
    let tree : Library := ⟨[], [], [settings, config], [inner]⟩
    let unknown : Mark := .ofPosition .unknown
    let isSchema : Mark := ⟨.unknown, [(AnnotationName.schemaMatch, ⟨[], []⟩)]⟩
    let isValues : Mark := ⟨.unknown, [(AnnotationName.dataValues, ⟨[], []⟩)]⟩
    let documents (f : File) : List Document :=
      if f.id = 0 then [⟨isSchema, .map unknown []⟩]
      else if f.id = 1 then [⟨unknown, .map isSchema []⟩]
      else if f.id = 2 then [⟨isValues, .map unknown []⟩] else []
    let l : Loader Unit := ⟨.ofRoot tree, {}, .plain documents⟩
    let s : Session Unit := ⟨[], .initial, ()⟩
    let ops : List (Library × Operation) := [(inner, .phase (.schemas [])),
      (tree, .phase (.values [] .null)), (tree, .phase (.eval .empty [] []))]
    let now := decisionsAfter s.marks ((l.history ops s).take 1)
    let later := decisionsAfter s.marks (l.history ops s)
    Identified l.context.root.all ∧ (∀ o ∈ ops, o.1.Within l.context.root) ∧
      declared.isForOutput s.marks = true ∧ declared.isForOutput now = false ∧
      (∃ p ∈ (l.history ops s).take 1, p.Claims declared) ∧
      declared.isForOutput later = false ∧
      (config.isForOutput later = config.isForOutput s.marks ∨
        config.isForOutput later = false) ∧
      settings.isForOutput later = false ∧ (l.afterAll ops s).marks = later := by
  intro declared broken settings config inner tree unknown isSchema isValues documents l s ops now
    later
  have identified : Identified l.context.root.all := by decide
  have within : ∀ o ∈ ops, o.1.Within l.context.root := by
    simp only [ops, List.forall_mem_cons]
    exact ⟨.inside (List.mem_singleton.mpr rfl) .here, .here, .here, List.forall_mem_nil _⟩
  have run : l.history ops s = (l.history ops s).take 1 ++ (l.history ops s).drop 1 ++ [] := by
    rw [List.append_nil, List.take_append_drop]
  have all : l.history ops s = l.history ops s ++ [] ++ [] := by simp
  have off : declared.isForOutput now = false := by decide +kernel
  have on : declared.isForOutput s.marks = true := rfl
  obtain ⟨files, -, -, last⟩ := decisions_last l identified ops within s _ _ [] run
  rw [List.take_append_drop] at files
  obtain ⟨-, changed, lasts⟩ := files ⟨declared, inner⟩ (by decide)
  obtain ⟨p, hp, claims, -⟩ := changed (by rw [off, on]; nofun)
  obtain ⟨files', -, found, -⟩ := decisions_last l identified ops within s _ [] [] all
  obtain ⟨kept, -, -⟩ := files' ⟨config, tree⟩ (by decide)
  let values : PhaseRun Unit := ⟨l.forLibrary tree, .values [] .null,
    (Operation.phase (.schemas [])).after (l.forLibrary inner) s⟩
  have second : values ∈ l.history ops s := List.mem_cons_of_mem _ (List.mem_cons_self ..)
  have finds : values.Finds [⟨settings, tree⟩] := ⟨AnnotationName.dataValues, rfl, by rfl⟩
  obtain ⟨gone, -⟩ := found values second _ finds ⟨settings, tree⟩ (List.mem_singleton.mpr rfl)
  exact ⟨identified, within, on, off, ⟨p, hp, claims⟩, lasts off, kept, gone, last⟩

end Stencil
