import Stencil.Proofs.Document.Splitting
import Stencil.Proofs.Evaluation.Calls
import Stencil.Proofs.Failure

/-!
# How discovery goes

Discovery goes through files in their order and looks into the template YAML
files only. It ends at the first file that cannot be parsed, or in which the
annotation stands further down than on a document; up to there it has found
the files of which a document carries the annotation, and those are out of
the output, whether or not it goes on to the end. `Discovery` has one rule
for each of the ways in which a file is treated.

## Main definitions

* `Marks.claimAll` — decisions after some files were taken out of the output.
* `File.IsYamlTemplate` — the files that discovery looks into.
* `Discovery` — the rules.

## Main results

* `Discovery.total`, `Discovery.yields` — discovery has a course, and follows
  it.
* `Discovery.recorded` — its calls are those of the parser on the files that
  it looks into.
* `Discovery.found_sublist` — what is found is among the files, in order.
-/

namespace Stencil

variable {σ : Type}

/-- Decisions after some files were taken out of the output one by one. -/
def Marks.claimAll (m : Marks) (files : List Located) : Marks :=
  files.foldl (fun m f => m.set f.file (some false)) m

/-- The calls of the parser on some files. -/
def parseCalls (files : List Located) : List Call := files.map fun f => .parse f.file

/-- Whether a file is a template YAML file. -/
def File.IsYamlTemplate (f : File) : Prop := f.kind = .yaml ∧ f.template = true

instance : DecidablePred File.IsYamlTemplate := fun f =>
  inferInstanceAs (Decidable (f.kind = .yaml ∧ f.template = true))

theorem isCandidate_iff {f : File} : isCandidate f = true ↔ f.IsYamlTemplate := by
  simp [isCandidate, File.IsYamlTemplate]

/-- What discovery among some files does in a world: how it ends, the files
that it finds, the files that it looks into, and the world it leaves. -/
inductive Discovery (c : Collaborators σ) (name : Text) :
    List Located → σ → Except Failure Unit → List Located → List Located → σ → Prop
  | nil {w : σ} : Discovery c name [] w (.ok ()) [] [] w
  /-- A file that is no template YAML file is passed over. -/
  | skipped {f : Located} {fs found parsed : List Located} {r : Except Failure Unit} {w w' : σ}
      (other : ¬ f.file.IsYamlTemplate) (rest : Discovery c name fs w r found parsed w') :
      Discovery c name (f :: fs) w r found parsed w'
  /-- A file cannot be parsed. -/
  | unparsed {f : Located} {fs : List Located} {x y : Failure} {w w' : σ}
      (candidate : f.file.IsYamlTemplate)
      (parse : Action.apply (c.parse f.file) w = (.error x, w'))
      (wrapped : x.Becomes (fun m => .evaluation f.path ("parsing: " ++ m)) y) :
      Discovery c name (f :: fs) w (.error y) [] [f] w'
  /-- The annotation stands further down than on a document. -/
  | misplaced {f : Located} {fs : List Located} {docs : List Document} {n : Node} {w w' : σ}
      (candidate : f.file.IsYamlTemplate)
      (parse : Action.apply (c.parse f.file) w = (.ok docs, w'))
      (nested : Documents.firstMisplaced name docs = some n) :
      Discovery c name (f :: fs) w
        (.error (.error (.annotationSyntax (Documents.misplaced name n)) none)) [] [f] w'
  /-- No document carries the annotation. -/
  | passed {f : Located} {fs found parsed : List Located} {docs : List Document}
      {r : Except Failure Unit} {w w₁ w₂ : σ} (candidate : f.file.IsYamlTemplate)
      (parse : Action.apply (c.parse f.file) w = (.ok docs, w₁))
      (above : Documents.firstMisplaced name docs = none)
      (absent : docs.any (·.mark.carries name) = false)
      (rest : Discovery c name fs w₁ r found parsed w₂) :
      Discovery c name (f :: fs) w r found (f :: parsed) w₂
  /-- A document carries the annotation. -/
  | found {f : Located} {fs found parsed : List Located} {docs : List Document}
      {r : Except Failure Unit} {w w₁ w₂ : σ} (candidate : f.file.IsYamlTemplate)
      (parse : Action.apply (c.parse f.file) w = (.ok docs, w₁))
      (above : Documents.firstMisplaced name docs = none)
      (present : docs.any (·.mark.carries name) = true)
      (rest : Discovery c name fs w₁ r found parsed w₂) :
      Discovery c name (f :: fs) w r (f :: found) (f :: parsed) w₂

/-- Telling whether a file declares an annotation, if it can be parsed and the
annotation stands on documents only. -/
private theorem declares_yields_of_above {c : Collaborators σ} {name : Text} {f : Located}
    {docs : List Document} {m : Marks} {w w' : σ}
    (parse : Action.apply (c.parse f.file) w = (.ok docs, w'))
    (above : Documents.firstMisplaced name docs = none) :
    (declares c name f).Yields m w (.ok (docs.any (·.mark.carries name))) m w' := by
  refine Run.Yields.bind (Run.Yields.wrap _ (Run.Yields.perform parse)) ?_
  rw [Documents.split_eq, above]
  refine Run.Yields.bind (Run.Yields.ofExcept _) ?_
  have hany : docs.any (·.mark.carries name) = !(docs.filter (·.mark.carries name)).isEmpty := by
    rw [Bool.eq_iff_iff]
    simp [List.filter_eq_nil_iff]
  rw [hany]
  exact Run.Yields.pure _

namespace Discovery

variable {c : Collaborators σ} {name : Text} {files found parsed : List Located}
  {r : Except Failure Unit} {w w' : σ}

/-- **Discovery has a course**, whatever the parser answers. -/
theorem total (c : Collaborators σ) (name : Text) (files : List Located) (w : σ) :
    ∃ r found parsed w', Discovery c name files w r found parsed w' := by
  induction files generalizing w with
  | nil => exact ⟨_, _, _, _, .nil⟩
  | cons f fs ih =>
      by_cases candidate : f.file.IsYamlTemplate
      · rcases parse : Action.apply (c.parse f.file) w with ⟨x | docs, w₁⟩
        · exact ⟨_, _, _, _, .unparsed candidate parse (x.becomes_wrap _)⟩
        · cases above : Documents.firstMisplaced name docs with
          | some n => exact ⟨_, _, _, _, .misplaced candidate parse above⟩
          | none =>
              obtain ⟨r, found, parsed, w', rest⟩ := ih w₁
              cases present : docs.any (·.mark.carries name) with
              | false => exact ⟨_, _, _, _, .passed candidate parse above present rest⟩
              | true => exact ⟨_, _, _, _, .found candidate parse above present rest⟩
      · obtain ⟨r, found, parsed, w', rest⟩ := ih w
        exact ⟨_, _, _, _, .skipped candidate rest⟩

/-- **Discovery follows its course**: it answers the files that it finds, and
takes them out of the output. -/
theorem yields (h : Discovery c name files w r found parsed w') (m : Marks) :
    (discover c name files).Yields m w (r.map fun _ => found) (m.claimAll found) w' := by
  induction h generalizing m with
  | nil => exact Run.Yields.pure _
  | skipped other rest ih =>
      rw [discover, if_neg (mt isCandidate_iff.mp other)]
      exact ih m
  | unparsed candidate parse wrapped =>
      obtain rfl := wrapped.eq_wrap
      rw [discover, if_pos (isCandidate_iff.mpr candidate)]
      refine Run.Yields.bind_error ?_
      exact Run.Yields.bind_error (Run.Yields.wrap _ (Run.Yields.perform parse))
  | misplaced candidate parse nested =>
      rw [discover, if_pos (isCandidate_iff.mpr candidate)]
      refine Run.Yields.bind_error ?_
      refine Run.Yields.bind (Run.Yields.wrap _ (Run.Yields.perform parse)) ?_
      rw [Documents.split_eq, nested]
      exact Run.Yields.bind_error (Run.Yields.ofExcept _)
  | passed candidate parse above absent rest ih =>
      rw [discover, if_pos (isCandidate_iff.mpr candidate)]
      refine Run.Yields.bind (declares_yields_of_above parse above) ?_
      rw [absent]
      exact ih m
  | @found f fs found parsed docs r w w₁ w₂ candidate parse above present rest ih =>
      rw [discover, if_pos (isCandidate_iff.mpr candidate)]
      refine Run.Yields.bind (declares_yields_of_above parse above) ?_
      rw [present, if_pos rfl]
      refine Run.Yields.bind (Run.Yields.claim f.file) ?_
      have hrest := ih (m.set f.file (some false))
      cases r with
      | error x => exact Run.Yields.bind_error hrest
      | ok u => exact Run.Yields.bind hrest (Run.Yields.pure _)

/-- Discovery is a phase that counts the files it finds. -/
theorem phase_yields {l : Loader σ}
    (h : Discovery l.collaborators name l.library.accessible w r found parsed w') (m : Marks) :
    (l.discoverFiles name).Yields m w (r.map fun _ => found) (m.claimAll found) w' := by
  refine Run.Yields.inSpan _ ?_
  have hfound := h.yields m
  cases r with
  | error x => exact Run.Yields.bind_error hfound
  | ok u =>
      refine Run.Yields.bind hfound ?_
      exact Run.Yields.bind (Run.Yields.annotate _ _) (Run.Yields.pure _)

/-- **The calls of discovery** are those of the parser on the files that it
looks into. -/
theorem recorded (h : Discovery c name files w r found parsed w') (earlier : List Call) :
    Discovery c.recorded name files ⟨w, earlier⟩ r found parsed
      ⟨w', earlier ++ parseCalls parsed⟩ := by
  have call : ∀ {f : Located} {v v' : σ} {docs : Except Failure (List Document)}
      (earlier : List Call), Action.apply (c.parse f.file) v = (docs, v') →
      Action.apply (c.recorded.parse f.file) ⟨v, earlier⟩ =
        (docs, ⟨v', earlier ++ [.parse f.file]⟩) := by
    intro f v v' docs earlier parse
    simp only [Collaborators.recorded, Action.recorded_apply, parse]
  induction h generalizing earlier with
  | nil => simpa [parseCalls] using Discovery.nil
  | skipped other rest ih => exact .skipped other (ih earlier)
  | unparsed candidate parse wrapped => exact .unparsed candidate (call earlier parse) wrapped
  | misplaced candidate parse nested => exact .misplaced candidate (call earlier parse) nested
  | @passed f fs found parsed docs r w w₁ w₂ candidate parse above absent rest ih =>
      have hrest := ih (earlier ++ [.parse f.file])
      rw [List.append_assoc] at hrest
      exact .passed candidate (call earlier parse) above absent hrest
  | @found f fs found parsed docs r w w₁ w₂ candidate parse above present rest ih =>
      have hrest := ih (earlier ++ [.parse f.file])
      rw [List.append_assoc] at hrest
      exact .found candidate (call earlier parse) above present hrest

/-- What is found is among the files, in order. -/
theorem found_sublist (h : Discovery c name files w r found parsed w') : found.Sublist files := by
  induction h with
  | nil => exact .slnil
  | skipped _ _ ih => exact ih.cons _
  | unparsed => exact List.nil_sublist _
  | misplaced => exact List.nil_sublist _
  | passed _ _ _ _ _ ih => exact ih.cons _
  | found _ _ _ _ _ ih => exact ih.cons_cons _

end Discovery

end Stencil
