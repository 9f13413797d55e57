import Mathlib.Data.List.Perm.Basic
import Stencil.Schema.Override

/-!
# The annotation that is selected

Of the annotations of a node the one of the lowest rank is selected, and the first
one of several of that rank. The rule behind it is one about order: move the
annotations that accept anything to the front, leave the order as it is otherwise, and
take the first. There is exactly one such order, it is the one that sorting by rank
gives, and the first annotation in it is the one of the lowest rank, whatever
annotations there are and how often each of them stands there.

Annotations can be equal, so what is selected are items that have an annotation, such
as annotations with their places in a list. The annotations themselves are the case of
`Override.select`.

## Main definitions

* `Override.acceptsAny` — whether an annotation accepts anything.
* `Override.MovedToFront` — items of one sort before the others, in the same order.
* `Override.byRank` — items sorted by the ranks of their annotations.

## Main results

* `Override.MovedToFront.eq_append` — there is one such order.
* `Override.byRank_movedToFront` — sorting by rank gives it.
* `Override.selectBy_cons` — the first item that accepts anything, or the first one.
* `Override.selected_first` — what is selected.
-/

namespace Stencil.Override

/-- Whether an annotation makes a node accept any value. -/
def acceptsAny : Override → Bool
  | .type isAny _ => isAny
  | .nullable _ _ => false

/-- The rank tells the annotations that accept anything from all others. -/
theorem rank_eq (o : Override) : o.rank = if o.acceptsAny then 0 else 1 := by
  cases o with
  | type isAny p => cases isAny <;> rfl
  | nullable wrapped p => rfl

variable {α : Type}

/-! ## Items moved to the front -/

/-- Items in another order: those of one sort come before all others, and otherwise the
order is as it was. -/
structure MovedToFront (p : α → Bool) (items moved : List α) : Prop where
  /-- No item of the sort comes after one that is not of it. -/
  front : moved.Pairwise fun a b => p b = true → p a = true
  /-- The items of the sort keep their order. -/
  kept : moved.filter p = items.filter p
  /-- The other items keep theirs. -/
  others : moved.filter (fun a => !p a) = items.filter fun a => !p a

/-- A list with the items of a sort in front is the list of these and then of the
others. -/
theorem eq_append_of_front {p : α → Bool} {moved : List α}
    (front : moved.Pairwise fun a b => p b = true → p a = true) :
    moved = moved.filter p ++ moved.filter fun a => !p a := by
  induction moved with
  | nil => rfl
  | cons a moved ih =>
      obtain ⟨hhead, htail⟩ := List.pairwise_cons.mp front
      cases ha : p a with
      | true =>
          rw [List.filter_cons_of_pos ha, List.filter_cons_of_neg (by simp [ha]),
            List.cons_append, ← ih htail]
      | false =>
          -- behind an item that is not of the sort there is none that is
          have none : moved.filter p = [] := by
            refine List.filter_eq_nil_iff.mpr fun b hb hpb => ?_
            rw [hhead b hb hpb] at ha
            cases ha
          have all : moved.filter (fun b => !p b) = moved := by
            have := ih htail
            rwa [none, List.nil_append, eq_comm] at this
          rw [List.filter_cons_of_neg (by simp [ha]), List.filter_cons_of_pos (by simp [ha]),
            none, all, List.nil_append]

/-- **There is one way** to move items to the front. -/
theorem MovedToFront.eq_append {p : α → Bool} {items moved : List α}
    (h : MovedToFront p items moved) :
    moved = items.filter p ++ items.filter fun a => !p a := by
  rw [← h.kept, ← h.others]
  exact eq_append_of_front h.front

/-! ## Items sorted by rank -/

variable (override : α → Override)

/-- Whether the rank of an item's annotation is not above that of another. -/
def notAbove (a b : α) : Bool := (override a).rank ≤ (override b).rank

/-- Items sorted by the ranks of their annotations. -/
def byRank (items : List α) : List α := items.mergeSort (notAbove override)

theorem notAbove_trans (a b c : α) (h : notAbove override a b = true)
    (k : notAbove override b c = true) : notAbove override a c = true := by
  simp only [notAbove, decide_eq_true_eq] at *
  exact Nat.le_trans h k

theorem notAbove_total (a b : α) : (notAbove override a b || notAbove override b a) = true := by
  simp only [notAbove, Bool.or_eq_true, decide_eq_true_eq]
  exact Nat.le_total _ _

/-- An item that accepts anything is above no other. -/
theorem notAbove_iff {a b : α} :
    notAbove override a b = true ↔
      ((override b).acceptsAny = true → (override a).acceptsAny = true) := by
  simp only [notAbove, decide_eq_true_eq, rank_eq]
  cases (override a).acceptsAny <;> cases (override b).acceptsAny <;> simp

/-- Items that all accept anything, or of which none does, keep their order when they
are sorted. -/
theorem byRank_filter (accepting : Bool) (items : List α) :
    (byRank override items).filter (fun a => (override a).acceptsAny == accepting) =
      items.filter fun a => (override a).acceptsAny == accepting := by
  have alike : (items.filter fun a => (override a).acceptsAny == accepting).Pairwise
      fun a b => notAbove override a b = true := by
    refine List.pairwise_of_forall_mem_list fun a ha b hb => (notAbove_iff override).mpr ?_
    simp only [List.mem_filter, beq_iff_eq] at ha hb
    rw [ha.2, hb.2]
    exact id
  have sub := (List.sublist_mergeSort (notAbove_trans override) (notAbove_total override) alike
    List.filter_sublist).filter fun a => (override a).acceptsAny == accepting
  simp only [List.filter_filter, Bool.and_self] at sub
  exact (sub.eq_of_length ((List.mergeSort_perm items _).filter _).length_eq.symm).symm

/-- **Sorting by rank** moves what accepts anything to the front. -/
theorem byRank_movedToFront (items : List α) :
    MovedToFront (fun a => (override a).acceptsAny) items (byRank override items) where
  front := (List.pairwise_mergeSort (notAbove_trans override) (notAbove_total override)
    items).imp (notAbove_iff override).mp
  kept := by simpa using byRank_filter override true items
  others := by simpa using byRank_filter override false items

/-! ## The item of the lowest rank -/

/-- Looking for a lower rank goes on until an item accepts anything. -/
theorem foldl_lower (best : α) (items : List α) :
    items.foldl (fun best b => if (override b).rank < (override best).rank then b else best) best =
      if (override best).acceptsAny then best
      else (items.find? fun a => (override a).acceptsAny).getD best := by
  induction items generalizing best with
  | nil => simp
  | cons a items ih =>
      rw [List.foldl_cons, ih]
      simp only [rank_eq, List.find?_cons]
      cases hbest : (override best).acceptsAny <;> cases ha : (override a).acceptsAny <;>
        simp [hbest, ha]

/-- The first item that accepts anything is selected, or else the first one. -/
theorem selectBy_cons (a : α) (items : List α) :
    selectBy override (a :: items) =
      ((a :: items).find? fun a => (override a).acceptsAny).or (some a) := by
  rw [selectBy, foldl_lower, List.find?_cons]
  cases (override a).acceptsAny with
  | true => rfl
  | false => cases items.find? fun a => (override a).acceptsAny <;> rfl

/-- **The selected annotation.** Nothing is selected from no annotations only. There is one
order in which those that accept anything come first and that is unchanged otherwise,
the one that sorting by rank gives; no annotation is lost in it. What is selected is the
first in that order, which is the first annotation that accepts anything, or else the
first of all. -/
theorem selected_first (items : List α) :
    (selectBy override items = none ↔ items = []) ∧
      (∀ moved, MovedToFront (fun a => (override a).acceptsAny) items moved ↔
        moved = byRank override items) ∧
      (byRank override items).Perm items ∧
      selectBy override items = (byRank override items).head? ∧
      selectBy override items =
        (items.find? fun a => (override a).acceptsAny).or items.head? := by
  have sorted := byRank_movedToFront override items
  have first : selectBy override items =
      (items.find? fun a => (override a).acceptsAny).or items.head? := by
    cases items with
    | nil => rfl
    | cons a items => exact selectBy_cons override a items
  refine ⟨?_, fun moved => ⟨fun h => ?_, fun h => h ▸ sorted⟩, List.mergeSort_perm items _, ?_,
    first⟩
  · cases items <;> simp [selectBy]
  · rw [h.eq_append, sorted.eq_append]
  · rw [first, sorted.eq_append, List.head?_append, List.head?_filter]
    cases found : items.find? fun a => (override a).acceptsAny with
    | some a => rfl
    | none =>
        -- nothing accepts anything, so nothing is moved
        have all : items.filter (fun a => !(override a).acceptsAny) = items := by
          refine List.filter_eq_self.mpr fun a ha => ?_
          simpa using List.find?_eq_none.mp found a ha
        rw [all]

/-- An annotation behind another one is selected if it accepts anything. -/
example (p : Position) (wrapped : SchemaType) :
    select [.type false p, .nullable wrapped p, .type true p] = some (.type true p) := rfl

end Stencil.Override
