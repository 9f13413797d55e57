import Stencil.Proofs.Value.Keys
import Stencil.Value.Json

/-!
# Objects that are read from JSON

An object that writes a name twice keeps the last value only, so the names of an object
that is read from a text differ.

## Main results

* `JsonText.value?_distinct`, `Value.ofJson?_distinct` — the names of an object differ.
-/

namespace Stencil

namespace JsonText

variable {t rest : Text} {es : List (Value × Value)}

theorem number?_ne_map : number? t ≠ some (.map es, rest) := by
  intro h
  unfold number? at h
  simp only [] at h
  split at h
  · cases h
  · cases h
  · obtain ⟨⟨whole, _⟩, -, h⟩ := Option.bind_eq_some_iff.mp h
    simp only [] at h
    split at h
    · split at h <;> cases h
    · cases h

theorem scalar?_ne_map : scalar? t ≠ some (.map es, rest) := by
  intro h
  unfold scalar? at h
  split at h
  · cases h
  · cases h
  · cases h
  · obtain ⟨_, -, h⟩ := Option.map_eq_some_iff.mp h
    cases h
  · exact number?_ne_map h

/-- **The names of an object** off the front of a text differ. -/
theorem value?_distinct {fuel : Nat} (h : value? fuel t = some (.map es, rest)) :
    Keyed.Distinct es := by
  cases fuel with
  | zero => cases h
  | succ fuel =>
      rw [value?] at h
      split at h
      · split at h
        · cases h
        · obtain ⟨_, -, h⟩ := Option.map_eq_some_iff.mp h
          cases h
      · split at h
        · cases h
          exact List.Pairwise.nil
        · obtain ⟨_, -, h⟩ := Option.map_eq_some_iff.mp h
          cases h
          exact Keyed.ofList_distinct _
      · exact absurd h scalar?_ne_map

end JsonText

theorem Value.ofJson?_distinct {t : Text} {es : List (Value × Value)}
    (h : Value.ofJson? t = some (.map es)) : Keyed.Distinct es := by
  unfold Value.ofJson? at h
  obtain ⟨⟨v, rest⟩, read, h⟩ := Option.bind_eq_some_iff.mp h
  simp only [] at h
  split at h
  · cases h
    exact JsonText.value?_distinct read
  · cases h

end Stencil
