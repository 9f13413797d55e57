import Stencil.Evaluation.Schemas
import Stencil.Proofs.Evaluation.Calls
import Stencil.Proofs.Failure

/-!
# How schema documents are merged

Schema documents are merged from the left: each patch is laid over what the
ones before it made of the first document, and the first merge that fails
ends the merging. `Merges` says so step by step, together with what the
merger is called on; a fold of the merger over the patches says what it comes
to.

## Main definitions

* `mergeError` — a failed merge as an error of the library.
* `Merges` — patches merged into a document, with the calls of the merger.
* `Merging` — the schema that some documents are merged into.
* `MergedFromLeft` — what that means.

## Main results

* `Merging.total`, `Merging.yields`, `Merging.recorded` — how merging ends,
  and with which calls.
* `Merges.call` — each call is given the fold of the patches before it.
* `Merges.complete`, `Merges.stopped` — merging that succeeds calls the merger
  once for each patch, and merging that fails does not call it again.
* `Merging.fromLeft` — the schema is the left fold of the merger over the
  documents.
-/

namespace Stencil

variable {σ : Type}

/-- A failed merge as an error of the library. -/
def mergeError (m : Text) : Error :=
  .reported .schemaMerge ("Merging schema documents: " ++ m) []

/-- The calls of the merger on some pairs of documents. -/
def mergeCalls (pairs : List (Document × Document)) : List Call :=
  pairs.map fun p => .merge p.1 p.2

/-- What comes of merging patches into a document one after another: a
document or a failure, the pairs of documents that the merger is called on,
and the world it leaves. -/
inductive Merges (c : Collaborators σ) :
    Document → List Document → σ → Except Failure Document → List (Document × Document) → σ → Prop
  | done {base : Document} {w : σ} : Merges c base [] w (.ok base) [] w
  /-- The merger fails. -/
  | failed {base patch : Document} {patches : List Document} {x y : Failure} {w w' : σ}
      (merge : Action.apply (c.merge base patch) w = (.error x, w'))
      (wrapped : x.Becomes mergeError y) :
      Merges c base (patch :: patches) w (.error y) [(base, patch)] w'
  /-- The merger answers, and the next patch is laid over its answer. -/
  | step {base patch merged : Document} {patches : List Document} {r : Except Failure Document}
      {pairs : List (Document × Document)} {w w₁ w₂ : σ}
      (merge : Action.apply (c.merge base patch) w = (.ok merged, w₁))
      (rest : Merges c merged patches w₁ r pairs w₂) :
      Merges c base (patch :: patches) w r ((base, patch) :: pairs) w₂

namespace Merges

variable {c : Collaborators σ} {base merged : Document} {patches : List Document} {w w' : σ}
  {r : Except Failure Document} {pairs : List (Document × Document)}

theorem total (c : Collaborators σ) (base : Document) (patches : List Document) (w : σ) :
    ∃ r pairs w', Merges c base patches w r pairs w' := by
  induction patches generalizing base w with
  | nil => exact ⟨_, _, _, .done⟩
  | cons patch patches ih =>
      rcases merge : Action.apply (c.merge base patch) w with ⟨x | merged, w₁⟩
      · exact ⟨_, _, _, .failed merge (x.becomes_wrap _)⟩
      · obtain ⟨r, pairs, w₂, rest⟩ := ih merged w₁
        exact ⟨_, _, _, .step merge rest⟩

theorem yields {l : Loader σ} (h : Merges l.collaborators base patches w r pairs w') (m : Marks) :
    (l.mergeInto base patches).Yields m w r m w' := by
  induction h with
  | done => exact Run.Yields.pure _
  | failed merge wrapped =>
      obtain rfl := wrapped.eq_wrap
      exact Run.Yields.bind_error (Run.Yields.wrap _ (Run.Yields.perform merge))
  | step merge _ ih =>
      exact Run.Yields.bind (Run.Yields.wrap _ (Run.Yields.perform merge)) ih

theorem recorded (h : Merges c base patches w r pairs w') (earlier : List Call) :
    Merges c.recorded base patches ⟨w, earlier⟩ r pairs ⟨w', earlier ++ mergeCalls pairs⟩ := by
  induction h generalizing earlier with
  | done => simpa [mergeCalls] using Merges.done
  | failed merge wrapped =>
      refine .failed ?_ wrapped
      simp only [Collaborators.recorded, Action.recorded_apply, merge]
      rfl
  | @step base patch merged patches r pairs w w₁ w₂ merge rest ih =>
      have hrest := ih (earlier ++ [.merge base patch])
      rw [List.append_assoc] at hrest
      exact .step (by simp only [Collaborators.recorded, Action.recorded_apply, merge]) hrest

/-- The merger laid a patch over a document, and then others over its
answer. -/
private theorem fold_cons {patch : Document} {w₁ : σ}
    (merge : Action.apply (c.merge base patch) w = (.ok merged, w₁)) (patches : List Document) :
    Action.apply ((patch :: patches).foldlM c.merge base) w =
      Action.apply (patches.foldlM c.merge merged) w₁ := by
  rw [List.foldlM_cons, Action.apply_bind, merge]

/-- **What the merger is called on**: the next patch, and what the patches
before it made of the first document. -/
theorem call (h : Merges c base patches w r pairs w') {i : Nat} {below patch : Document}
    (at_i : pairs[i]? = some (below, patch)) :
    patches[i]? = some patch ∧
      ∃ v, Action.apply ((patches.take i).foldlM c.merge base) w = (.ok below, v) := by
  induction h generalizing i with
  | done => cases at_i
  | failed merge =>
      cases i with
      | zero =>
          cases at_i
          exact ⟨rfl, _, rfl⟩
      | succ i => cases at_i
  | step merge rest ih =>
      cases i with
      | zero =>
          cases at_i
          exact ⟨rfl, _, rfl⟩
      | succ i =>
          obtain ⟨hpatch, v, hfold⟩ := ih at_i
          exact ⟨hpatch, v, by rw [List.take_succ_cons, fold_cons merge, hfold]⟩

/-- **Merging that succeeds** comes to the left fold of the merger, which is
called once for each patch. -/
theorem complete (h : Merges c base patches w (.ok merged) pairs w') :
    Action.apply (patches.foldlM c.merge base) w = (.ok merged, w') ∧
      pairs.map (·.2) = patches := by
  generalize hr : (.ok merged : Except Failure Document) = r at h
  induction h with
  | done =>
      cases hr
      exact ⟨rfl, rfl⟩
  | failed => cases hr
  | step merge _ ih =>
      obtain ⟨hfold, hpatches⟩ := ih hr
      exact ⟨(fold_cons merge _).trans hfold, by rw [List.map_cons, hpatches]⟩

/-- **Merging that fails** does so at the first patch that the merger fails
on. A fault becomes an error of the library, an error stays what it is, and no
patch after it is merged. -/
theorem stopped {x : Failure} (h : Merges c base patches w (.error x) pairs w') :
    ∃ y : Failure, y.Becomes mergeError x ∧
      Action.apply (patches.foldlM c.merge base) w = (.error y, w') ∧
      ∃ before patch after below v, patches = before ++ patch :: after ∧
        pairs.map (·.2) = before ++ [patch] ∧
        Action.apply (c.merge below patch) v = (.error y, w') := by
  generalize hr : (.error x : Except Failure Document) = r at h
  induction h with
  | done => cases hr
  | @failed base patch patches y _ w w' merge wrapped =>
      cases hr
      refine ⟨y, wrapped, ?_, [], patch, patches, base, w, rfl, rfl, merge⟩
      rw [List.foldlM_cons, Action.apply_bind, merge]
  | @step base patch merged patches r pairs w w₁ w₂ merge _ ih =>
      obtain ⟨y, hx, hfold, before, last, after, below, v, rfl, hpairs, hfail⟩ := ih hr
      refine ⟨y, hx, (fold_cons merge _).trans hfold, patch :: before, last, after, below, v, rfl,
        ?_, hfail⟩
      rw [List.map_cons, hpairs]
      rfl

end Merges

/-- What comes of the documents addressed to the library at hand: a schema or
a failure, the pairs of documents that the merger is called on, and the world
it leaves. -/
inductive Merging (c : Collaborators σ) :
    List Document → σ → Except Failure Schema → List (Document × Document) → σ → Prop
  /-- Nothing is declared. -/
  | none {w : σ} : Merging c [] w (.ok .null) [] w
  /-- A merge fails. -/
  | failed {base : Document} {patches : List Document} {x : Failure}
      {pairs : List (Document × Document)} {w w' : σ}
      (merges : Merges c base patches w (.error x) pairs w') :
      Merging c (base :: patches) w (.error x) pairs w'
  /-- The merged document declares no schema. -/
  | untyped {base merged : Document} {patches : List Document} {x : Failure}
      {pairs : List (Document × Document)} {w w' : σ}
      (merges : Merges c base patches w (.ok merged) pairs w')
      (type : DocumentSchema.ofDocument merged = .error x) :
      Merging c (base :: patches) w (.error x) pairs w'
  /-- The merged document declares the schema. -/
  | merged {base merged : Document} {patches : List Document} {schema : DocumentSchema}
      {pairs : List (Document × Document)} {w w' : σ}
      (merges : Merges c base patches w (.ok merged) pairs w')
      (type : DocumentSchema.ofDocument merged = .ok schema) :
      Merging c (base :: patches) w (.ok (.document schema)) pairs w'

namespace Merging

variable {c : Collaborators σ} {docs : List Document} {w w' : σ} {r : Except Failure Schema}
  {pairs : List (Document × Document)}

/-- **Merging comes to an end**, whatever the merger answers. -/
theorem total (c : Collaborators σ) (docs : List Document) (w : σ) :
    ∃ r pairs w', Merging c docs w r pairs w' := by
  cases docs with
  | nil => exact ⟨_, _, _, .none⟩
  | cons base patches =>
      obtain ⟨x | merged, pairs, w', merges⟩ := Merges.total c base patches w
      · exact ⟨_, _, _, .failed merges⟩
      · cases type : DocumentSchema.ofDocument merged with
        | error x => exact ⟨_, _, _, .untyped merges type⟩
        | ok schema => exact ⟨_, _, _, .merged merges type⟩

/-- **Merging follows the rules**, and decides nothing about output. -/
theorem yields {l : Loader σ} (h : Merging l.collaborators docs w r pairs w') (m : Marks) :
    (l.mergeSchemas docs).Yields m w r m w' := by
  have merge : ∀ {base merged : Document} {patches : List Document} {w w' : σ}
      {pairs : List (Document × Document)},
      Merges l.collaborators base patches w (.ok merged) pairs w' →
      (Run.inSpan "merge" do
        let merged ← l.mergeInto base patches
        Run.annotate "documents" (patches.length + 1)
        return merged : Run σ Document).Yields m w (.ok merged) m w' := by
    intro base merged patches w w' pairs merges
    refine Run.Yields.inSpan _ (Run.Yields.bind (merges.yields m) ?_)
    exact Run.Yields.bind (Run.Yields.annotate _ _) (Run.Yields.pure _)
  cases h with
  | none => exact Run.Yields.pure _
  | failed merges =>
      refine Run.Yields.bind_error (Run.Yields.inSpan _ ?_)
      exact Run.Yields.bind_error (merges.yields m)
  | untyped merges type =>
      refine Run.Yields.bind (merge merges) ?_
      rw [type]
      exact Run.Yields.bind_error (Run.Yields.ofExcept _)
  | merged merges type =>
      refine Run.Yields.bind (merge merges) ?_
      rw [type]
      exact Run.Yields.bind (Run.Yields.ofExcept _) (Run.Yields.pure _)

/-- **The calls of merging** are the ones that a recorder writes down. -/
theorem recorded (h : Merging c docs w r pairs w') (earlier : List Call) :
    Merging c.recorded docs ⟨w, earlier⟩ r pairs ⟨w', earlier ++ mergeCalls pairs⟩ := by
  cases h with
  | none => simpa [mergeCalls] using Merging.none
  | failed merges => exact .failed (merges.recorded earlier)
  | untyped merges type => exact .untyped (merges.recorded earlier) type
  | merged merges type => exact .merged (merges.recorded earlier) type

end Merging

/-- What it means that the schema of some documents, or a failure, is made by
the merger from the left, when the merger is called on some pairs. -/
structure MergedFromLeft (c : Collaborators σ) (docs : List Document) (w : σ)
    (r : Except Failure Schema) (pairs : List (Document × Document)) : Prop where
  /-- There is no schema exactly if there are no documents. -/
  null_iff : r = .ok .null ↔ docs = []
  /-- The first document alone is not merged. -/
  length_le : pairs.length ≤ docs.length - 1
  /-- A call is given the next patch, and what the patches before it made of
  the first document. -/
  call : ∀ base patches i below patch, docs = base :: patches → pairs[i]? = some (below, patch) →
    patches[i]? = some patch ∧
      ∃ v, Action.apply ((patches.take i).foldlM c.merge base) w = (.ok below, v)
  /-- If no merge fails, there is one call for each patch, and the last answer
  declares the schema. -/
  merged : ∀ base patches merged v, docs = base :: patches →
    Action.apply (patches.foldlM c.merge base) w = (.ok merged, v) →
    pairs.length = patches.length ∧ r = (DocumentSchema.ofDocument merged).map .document
  /-- If a merge fails, it is the last call; its fault becomes an error of the
  library, and its error stays what it is. -/
  aborted : ∀ base patches y v, docs = base :: patches →
    Action.apply (patches.foldlM c.merge base) w = (.error y, v) →
    (∃ x, r = .error x ∧ y.Becomes mergeError x) ∧
      ∃ before patch after below u, patches = before ++ patch :: after ∧
        pairs.map (·.2) = before ++ [patch] ∧
        Action.apply (c.merge below patch) u = (.error y, v)

/-- Documents of which none fails to be merged. -/
private theorem MergedFromLeft.of_complete {c : Collaborators σ} {base merged : Document}
    {patches : List Document} {pairs : List (Document × Document)} {w w' : σ}
    (merges : Merges c base patches w (.ok merged) pairs w') :
    MergedFromLeft c (base :: patches) w ((DocumentSchema.ofDocument merged).map .document)
      pairs := by
  obtain ⟨hfold, hpairs⟩ := merges.complete
  have hlength : pairs.length = patches.length := by rw [← hpairs, List.length_map]
  refine ⟨?_, Nat.le_of_eq hlength, ?_, ?_, ?_⟩
  · refine ⟨?_, nofun⟩
    intro h
    cases htype : DocumentSchema.ofDocument merged <;> rw [htype] at h <;> cases h
  · rintro _ _ i below patch ⟨rfl, rfl⟩ at_i
    exact merges.call at_i
  · rintro _ _ merged v ⟨rfl, rfl⟩ h
    cases hfold.symm.trans h
    exact ⟨hlength, rfl⟩
  · rintro _ _ y v ⟨rfl, rfl⟩ h
    cases hfold.symm.trans h

/-- **The schema of some documents is made from the left.** -/
theorem Merging.fromLeft {c : Collaborators σ} {docs : List Document} {w w' : σ}
    {r : Except Failure Schema} {pairs : List (Document × Document)}
    (h : Merging c docs w r pairs w') : MergedFromLeft c docs w r pairs := by
  cases h with
  | none => exact ⟨⟨fun _ => rfl, fun _ => rfl⟩, Nat.le_refl _, nofun, nofun, nofun⟩
  | failed merges =>
      obtain ⟨y, wrapped, hfold, before, patch, after, below, v, hpatches, hpairs, hfail⟩ :=
        merges.stopped
      refine ⟨⟨nofun, nofun⟩, ?_, ?_, ?_, ?_⟩
      · have hlength := congrArg List.length hpairs
        rw [List.length_map] at hlength
        simp only [hlength, hpatches, List.length_append, List.length_cons, List.length_nil]
        omega
      · rintro _ _ i below patch ⟨rfl, rfl⟩ at_i
        exact merges.call at_i
      · rintro _ _ merged v ⟨rfl, rfl⟩ h
        cases hfold.symm.trans h
      · rintro _ _ z v ⟨rfl, rfl⟩ h
        cases hfold.symm.trans h
        exact ⟨⟨_, rfl, wrapped⟩, before, patch, after, below, _, hpatches, hpairs, hfail⟩
  | untyped merges type =>
      have h := MergedFromLeft.of_complete merges
      rw [type] at h
      exact h
  | merged merges type =>
      have h := MergedFromLeft.of_complete merges
      rw [type] at h
      exact h

end Stencil
