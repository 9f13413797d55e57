import Stencil.Values.Ledger

/-!
# What a ledger has entered

A ledger enters uses one after another, the latest first. What it knows
after any number of them is a function of the values that were used:
`Ledger.after` is that ledger, and a further entry leads to the ledger after
one more value, or fails at the first value that is not tracked.

## Main definitions

* `Ledger.after` — the ledger in which some values were used in turn.
* `firstUntracked` — the first value that no ledger of these could enter.
* `unconsumed` — the tracked values that none of the used ones is.

## Main results

* `Ledger.markAll_after` — entering values one after another.
* `Ledger.report_after` — what is reported as unused afterwards.
-/

namespace Stencil

/-- The first of some values that is not among the tracked ones. -/
def firstUntracked (tracked used : List DataValues) : Option DataValues :=
  used.find? fun v => !tracked.any (·.id = v.id)

/-- The tracked values that are not among the used ones, in their order. -/
def unconsumed (tracked used : List DataValues) : List DataValues :=
  tracked.filter fun v => !used.any (·.id = v.id)

namespace Ledger

/-- The ledger in which some values were used one after another. -/
def after (tracked used : List DataValues) : Ledger := ⟨tracked, (used.map (·.id)).reverse⟩

@[simp] theorem after_nil (tracked : List DataValues) : after tracked [] = ofList tracked := rfl

private theorem markUsed_after (tracked used : List DataValues) (v : DataValues) :
    (after tracked used).markUsed v =
      if tracked.any (·.id = v.id) then .ok (after tracked (used ++ [v]))
      else Fault.throw (.untracked v.desc) := by
  by_cases hv : (tracked.any (·.id = v.id)) = true
  · simp [markUsed, tracks, after, hv]
  · simp [markUsed, tracks, after, hv]

/-- Entering several values enters all of them, unless one is not tracked;
the first such value is the one that the failure names. -/
theorem markAll_after (tracked used vs : List DataValues) :
    (after tracked used).markAll vs =
      match firstUntracked tracked vs with
      | none => .ok (after tracked (used ++ vs))
      | some v => Fault.throw (.untracked v.desc) := by
  induction vs generalizing used with
  | nil => simp [markAll, firstUntracked, pure, Except.pure]
  | cons v vs ih =>
      have hstep : (after tracked used).markAll (v :: vs) =
          (after tracked used).markUsed v >>= fun l => l.markAll vs := rfl
      rw [hstep, markUsed_after]
      by_cases hv : (tracked.any (·.id = v.id)) = true
      · have hfirst : firstUntracked tracked (v :: vs) = firstUntracked tracked vs := by
          simp [firstUntracked, hv]
        rw [if_pos hv, hfirst]
        show (after tracked (used ++ [v])).markAll vs = _
        rw [ih, List.append_assoc]
        rfl
      · have hfirst : firstUntracked tracked (v :: vs) = some v := by
          simp [firstUntracked, hv]
        rw [if_neg hv, hfirst]
        rfl

/-- The unused values of the report are the unconsumed ones, by their
descriptions. -/
theorem report_after (tracked used : List DataValues) :
    (after tracked used).report.unused = (unconsumed tracked used).map (·.desc) := by
  have hused : ∀ v : DataValues,
      (after tracked used).isUsed v = used.any (·.id = v.id) := by
    intro v
    rw [Bool.eq_iff_iff]
    simp only [isUsed, after, List.contains_iff_mem, List.mem_reverse, List.mem_map,
      List.any_eq_true, decide_eq_true_eq]
  simp only [report, unconsumed, hused]
  rfl

end Ledger

end Stencil
