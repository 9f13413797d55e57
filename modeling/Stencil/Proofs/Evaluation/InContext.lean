import Stencil.Proofs.Evaluation.Answers
import Stencil.Proofs.Evaluation.Contents

/-!
# Engines that answer by file and context

An engine may look at the tree around a file: at the library at hand and at the
root. Here are the engines that look at nothing else but the file, so that their
answers stay the same from one world to another, and from one engine to another
that is made alike.

What becomes of a file does not depend on the world then, nor on the files that
come before it. So a pass that ends without failure can be made again over some
of its files only, and what they contribute is what they contributed before.

## Main definitions

* `ContextAnswers`, `Engine.AnswersIn` — answers by file and context, and engines
  that give them.
* `Piece.path` — the path of a contribution.
* `Call.located?` — the file that an engine is called on, with the library at
  hand.

## Main results

* `Visit.again` — a visit in another world.
* `Pass.pick` — a pass over some of the files.
* `pieces_pick`, `engineCalls_pick` — what comes of it, and its calls.
-/

namespace Stencil

variable {σ : Type}

/-- Answers by file and context, for each manner. -/
abbrev ContextAnswers := Manner → Context → File → Except Failure (Evaluated Content)

/-- Whether an engine answers by file and context, in every world. -/
def Engine.AnswersIn (e : Engine σ) (a : ContextAnswers) : Prop :=
  ∀ k c f w, (Action.apply (e.evaluate k c f) w).1 = a k c f

/-- The path of the file that contributes a piece, from the root. -/
def Piece.path : Piece → Text
  | .documents f _ => f.path
  | .fragment f _ => f.path
  | .symbols names => names.path

/-- The file that an engine is called on, with the library at hand. -/
def Call.located? : Call → Option Located
  | .evaluate _ context f => some ⟨f, context.current⟩
  | _ => none

/-- A contribution has the path of its file. -/
theorem Contributes.path {m : Marks} {f : Located} {part : Option Piece}
    (h : Contributes m f part) : ∀ piece ∈ part, piece.path = f.path := by
  cases h with
  | nothing => exact nofun
  | _ =>
      rintro _ ⟨⟩
      rfl

/-! ## Once more in another world -/

section Again

variable {e e' : Engine σ} {a : ContextAnswers} {root : Library} {m : Marks}
  {tracked : List DataValues} {f : Located} {w w₁ : σ}

/-- Engines that answer alike answer alike in a pass. -/
private theorem Scene.answer_again (answers : e.AnswersIn a) (answers' : e'.AnswersIn a)
    {k : Manner} {r : Except Failure (Evaluated Content)}
    (h : Action.apply (Scene.answer ⟨e, root, m, tracked⟩ k f) w = (r, w₁)) (w' : σ) :
    ∃ w₁', Action.apply (Scene.answer ⟨e', root, m, tracked⟩ k f) w' = (r, w₁') := by
  have hfst := Scene.answer_fst ⟨e, root, m, tracked⟩ k f w
  have hfst' := Scene.answer_fst ⟨e', root, m, tracked⟩ k f w'
  rw [answers] at hfst
  rw [answers', ← hfst, h] at hfst'
  refine ⟨(Action.apply (Scene.answer ⟨e', root, m, tracked⟩ k f) w').2, ?_⟩
  exact Prod.ext hfst' rfl

/-- **A visit in another world**, with an engine that answers alike. -/
theorem Visit.again (answers : e.AnswersIn a) (answers' : e'.AnswersIn a)
    {r : Except Failure (Option Piece × List DataValues)}
    (h : Visit ⟨e, root, m, tracked⟩ f w r w₁) (w' : σ) :
    ∃ w₁', Visit ⟨e', root, m, tracked⟩ f w' r w₁' := by
  cases h with
  | failed call answer wrapped =>
      obtain ⟨w₁', answer'⟩ := Scene.answer_again answers answers' answer w'
      exact ⟨w₁', .failed call answer' wrapped⟩
  | documents output kind answer =>
      obtain ⟨w₁', answer'⟩ := Scene.answer_again answers answers' answer w'
      exact ⟨w₁', .documents output kind answer'⟩
  | fragment output kind answer encoded =>
      obtain ⟨w₁', answer'⟩ := Scene.answer_again answers answers' answer w'
      exact ⟨w₁', .fragment output kind answer' encoded⟩
  | unencodable output kind answer obstacle =>
      obtain ⟨w₁', answer'⟩ := Scene.answer_again answers answers' answer w'
      exact ⟨w₁', .unencodable output kind answer' obstacle⟩
  | unsupported output kind => exact ⟨w', .unsupported output kind⟩
  | symbols silent library call answer =>
      obtain ⟨w₁', answer'⟩ := Scene.answer_again answers answers' answer w'
      exact ⟨w₁', .symbols silent library call answer'⟩
  | skipped silent other => exact ⟨w', .skipped silent other⟩

/-- **A pass over some of the files**, picked out by their paths, in another
world. The induction is on the pass; a file that is left out leaves its world
behind. -/
theorem Pass.pick (answers : e.AnswersIn a) (answers' : e'.AnswersIn a) (p : Text → Bool)
    {files visited : List Located} {r : Except Failure (List Piece × List DataValues)}
    (h : Pass ⟨e, root, m, tracked⟩ files w r visited w₁) {pieces : List Piece}
    {consumed : List DataValues} (hr : r = .ok (pieces, consumed)) (w' : σ) :
    ∃ consumed' w₁', Pass ⟨e', root, m, tracked⟩ (files.filter fun f => p f.path) w'
      (.ok (pieces.filter fun piece => p piece.path, consumed'))
      (files.filter fun f => p f.path) w₁' := by
  induction h generalizing pieces consumed w' with
  | nil =>
      cases hr
      exact ⟨[], w', .nil⟩
  | stop => cases hr
  | @step f fs visited w w₁ w₂ piece used r one rest ih =>
      cases r with
      | error x => cases hr
      | ok q =>
          cases hr
          have hpath := one.contributes.path
          simp only [List.filter_cons, List.filter_append]
          by_cases hf : p f.path = true
          · obtain ⟨w₁', one'⟩ := one.again answers answers' w'
            obtain ⟨consumed', w₂', rest'⟩ := ih rfl w₁'
            have hpiece : piece.toList.filter (fun piece => p piece.path) = piece.toList := by
              refine List.filter_eq_self.mpr fun q hq => ?_
              rw [hpath q (Option.mem_toList.mp hq), hf]
            rw [if_pos hf, hpiece]
            exact ⟨used ++ consumed', w₂', .step one' rest'⟩
          · have hpiece : piece.toList.filter (fun piece => p piece.path) = [] := by
              refine List.filter_eq_nil_iff.mpr fun q hq => ?_
              rwa [hpath q (Option.mem_toList.mp hq)]
            rw [if_neg hf, hpiece]
            exact ih rfl w'

end Again

/-- Some sort of pieces, among those of some paths. -/
private theorem filterMap_pick {α : Type} {sort : Piece → Option α} {path : α → Text}
    (paths : ∀ piece x, sort piece = some x → path x = piece.path) (p : Text → Bool)
    (pieces : List Piece) :
    (pieces.filter fun piece => p piece.path).filterMap sort =
      (pieces.filterMap sort).filter fun x => p (path x) := by
  rw [List.filterMap_filter, List.filter_filterMap]
  refine List.filterMap_congr fun piece _ => ?_
  cases hsort : sort piece with
  | none => simp
  | some x =>
      rw [← paths piece x hsort]
      cases hx : p (path x) <;> simp [Option.filter, hx]

/-- **What some of the files contribute**: the documents, the texts and the
exports with their paths. -/
theorem pieces_pick (p : Text → Bool) (pieces : List Piece) :
    (pieces.filter fun piece => p piece.path).filterMap Piece.documents? =
        (pieces.filterMap Piece.documents?).filter (fun d => p d.1.path) ∧
      (pieces.filter fun piece => p piece.path).filterMap Piece.fragment? =
          (pieces.filterMap Piece.fragment?).filter (fun d => p d.1.path) ∧
        exportsOf (pieces.filter fun piece => p piece.path) =
          (exportsOf pieces).filter fun names => p names.path := by
  refine ⟨filterMap_pick ?_ p pieces, filterMap_pick ?_ p pieces, filterMap_pick ?_ p pieces⟩ <;>
  · rintro (_ | _ | _) x hx <;> cases hx
    rfl

/-- **The calls for some of the files** are those calls that are made on them. -/
theorem engineCalls_pick (root : Library) (m : Marks) (p : Text → Bool) (files : List Located) :
    engineCalls root m (files.filter fun f => p f.path) =
      (engineCalls root m files).filter fun call => call.located?.any fun f => p f.path := by
  rw [engineCalls, engineCalls, List.filterMap_filter, List.filter_filterMap]
  refine List.filterMap_congr fun f _ => ?_
  cases hcall : f.file.manner? m with
  | none => cases p f.path <;> simp [Located.call?, hcall]
  | some k =>
      have hlocated : (Call.evaluate k ⟨f.library, root⟩ f.file).located? = some f := rfl
      cases hf : p f.path <;> simp [Located.call?, hcall, hlocated, hf, Option.filter]

/-- Every call of an engine tells its file. -/
theorem engineCalls_located (root : Library) (m : Marks) (files : List Located) :
    (engineCalls root m files).filter (·.located?.isSome) = engineCalls root m files := by
  refine List.filter_eq_self.mpr fun call hcall => ?_
  obtain ⟨f, -, k, -, rfl⟩ := Outcome.evaluated_of_mem_engineCalls hcall
  rfl

end Stencil
