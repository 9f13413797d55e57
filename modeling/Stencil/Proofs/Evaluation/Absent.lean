import Stencil.Proofs.Evaluation.Outcome

/-!
# Files that take no part

A file that is neither output nor a library file that defines names takes no
part in an evaluation: no engine is called on it, the world does not change,
and nothing is contributed. An evaluation with such files has the outcome
that it has without them.

## Main definitions

* `Located.Absent` — files that take no part.

## Main results

* `Visit.absent`, `Pass.without`, `Outcome.without` — leaving such files out
  changes nothing.
-/

namespace Stencil

variable {σ : Type}

/-- Whether a file takes no part in an evaluation under some decisions on
output. -/
structure Located.Absent (f : Located) (m : Marks) : Prop where
  silent : f.file.isForOutput m = false
  other : f.file.isLibrary = false ∨ f.file.kind = .unknown

variable {v : Scene σ} {f : Located} {files visited : List Located} {w w' : σ}

theorem Located.Absent.manner? {m : Marks} (h : f.Absent m) : f.file.manner? m = none := by
  rcases h.other with hl | hk
  · simp [File.manner?, h.silent, hl]
  · simp [File.manner?, h.silent, hk]

/-- No engine is called on a file that takes no part. -/
theorem Located.Absent.call? {m : Marks} (h : f.Absent m) (root : Library) :
    f.call? root m = none := by
  rw [Located.call?, h.manner?]
  rfl

/-- The visit of a file that takes no part has no effect. -/
theorem Visit.absent {r : Except Failure (Option Piece × List DataValues)}
    (h : Visit v f w r w') (absent : f.Absent v.marks) : r = .ok (none, []) ∧ w' = w := by
  cases h with
  | failed call =>
      rw [absent.manner?] at call
      cases call
  | documents output =>
      rw [absent.silent] at output
      cases output
  | fragment output =>
      rw [absent.silent] at output
      cases output
  | unencodable output =>
      rw [absent.silent] at output
      cases output
  | unsupported output =>
      rw [absent.silent] at output
      cases output
  | symbols silent library call =>
      rw [absent.manner?] at call
      cases call
  | skipped => exact ⟨rfl, rfl⟩

/-- The calls for some files are those for the files that take part. -/
theorem engineCalls_filter (root : Library) {m : Marks} {keep : Located → Bool}
    (absent : ∀ f ∈ files, keep f = false → f.Absent m) :
    engineCalls root m (files.filter keep) = engineCalls root m files := by
  induction files with
  | nil => rfl
  | cons f files ih =>
      have hrest := ih fun g hg => absent g (List.mem_cons_of_mem _ hg)
      unfold engineCalls at *
      rw [List.filter_cons, List.filterMap_cons]
      cases hf : keep f
      · rw [(absent f (List.mem_cons_self ..) hf).call? root]
        exact hrest
      · rw [if_pos rfl, List.filterMap_cons, hrest]

/-- **A pass without files that take no part** is the same pass. -/
theorem Pass.without {r : Except Failure (List Piece × List DataValues)} {keep : Located → Bool}
    (h : Pass v files w r visited w')
    (absent : ∀ f ∈ files, keep f = false → f.Absent v.marks) :
    Pass v (files.filter keep) w r (visited.filter keep) w' := by
  induction h with
  | nil => exact .nil
  | @stop f fs w w' x fail =>
      cases hf : keep f
      · obtain ⟨hr, -⟩ := fail.absent (absent f (List.mem_cons_self ..) hf)
        cases hr
      · rw [List.filter_cons, if_pos hf, List.filter_cons, if_pos hf]
        exact .stop fail
  | @step f fs visited w w₁ w₂ piece consumed r one rest ih =>
      have hrest := ih fun g hg => absent g (List.mem_cons_of_mem _ hg)
      rw [List.filter_cons, List.filter_cons]
      cases hf : keep f
      · obtain ⟨hr, rfl⟩ := one.absent (absent f (List.mem_cons_self ..) hf)
        cases hr
        cases r <;> exact hrest
      · exact .step one hrest

/-- **An evaluation without files that take no part** has the same
outcome. -/
theorem Outcome.without {c : Collaborators σ} {answer : Except Failure EvalResult}
    {calls : List Call} {keep : Located → Bool} (h : Outcome c v files w answer calls w')
    (absent : ∀ f ∈ files, keep f = false → f.Absent v.marks) :
    Outcome c v (files.filter keep) w answer calls w' := by
  have hall := engineCalls_filter v.root absent
  cases h with
  | @file x visited _ pass =>
      have hvisited := engineCalls_filter v.root
        fun f (hf : f ∈ visited) => absent f (pass.visited_prefix.subset hf)
      rw [← hvisited]
      exact .file (pass.without absent)
  | unused pass left =>
      rw [← hall]
      exact .unused (pass.without absent) left
  | postProcessing pass used together run wrapped =>
      rw [← hall]
      exact .postProcessing (pass.without absent) used together run wrapped
  | unserialisable pass used together run order rendered found broken =>
      rw [← hall]
      exact .unserialisable (pass.without absent) used together run order rendered found broken
  | complete pass used together run order rendered =>
      rw [← hall]
      exact .complete (pass.without absent) used together run order rendered

end Stencil
