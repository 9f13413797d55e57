import Stencil.Text.Native

/-!
# Texts without obstacles

Whether a text can be encoded, or handed to the system, is a matter of its code
points one by one. It only depends on all of them which of them is named as the
obstacle. How many bytes a text stands for is a matter of its code points as well, and
can be counted without the bytes.

## Main definitions

* `Native.width`, `Native.bytes` — how many bytes code points and texts stand for.
* `Native.Stands`, `Native.Clean` — code points and texts that stand for bytes a name
  can have.

## Main results

* `Utf8.obstacleFrom_eq_none_iff` — texts that can be encoded.
* `Native.size_eq` — the number of bytes of a text.
* `Native.obstacle?_eq_none_iff` — texts that can be handed to the system.
-/

namespace Stencil

theorem Utf8.obstacleFrom_eq_none_iff {stops : CodePoint → Bool} (position : Nat) {t : Text} :
    obstacleFrom stops position t = none ↔ ∀ c ∈ t, stops c = false := by
  induction t generalizing position with
  | nil => simp [obstacleFrom]
  | cons c t ih => cases h : stops c <;> simp [obstacleFrom, h, ih]

namespace Native

/-! ## How many bytes there are -/

/-- The number of bytes that a code point stands for. -/
def width (c : CodePoint) : Nat :=
  if c.code < 0x80 ∨ 0xDC80 ≤ c.code ∧ c.code ≤ 0xDCFF then 1
  else if c.code < 0x800 then 2
  else if c.code < 0x10000 then 3
  else 4

/-- The number of bytes that the code points of a text stand for. -/
def bytes : Text → Nat
  | [] => 0
  | c :: t => width c + bytes t

theorem isEscape_iff {c : CodePoint} : isEscape c = true ↔ 0xDC80 ≤ c.code ∧ c.code ≤ 0xDCFF := by
  simp [isEscape, CodePoint.isWithin]

/-- The bytes of a code point are as many as its number tells. -/
theorem length_bytesOf (c : CodePoint) : (bytesOf c).length = width c := by
  unfold bytesOf width
  by_cases escape : 0xDC80 ≤ c.code ∧ c.code ≤ 0xDCFF
  · rw [if_pos (isEscape_iff.mpr escape), if_pos (.inr escape)]
    rfl
  · rw [if_neg (mt isEscape_iff.mp escape)]
    simp only [Utf8.bytesOf, or_iff_left escape]
    split
    · rfl
    · split
      · rfl
      · split <;> rfl

/-- **The bytes of a text** are those of its code points. -/
theorem size_eq (t : Text) : size t = bytes t := by
  induction t with
  | nil => rfl
  | cons c t ih =>
      rw [size, List.flatMap_cons, List.length_append, length_bytesOf, bytes, ← ih]
      rfl

theorem bytes_append (s t : Text) : bytes (s ++ t) = bytes s + bytes t := by
  rw [← size_eq, ← size_eq, ← size_eq]
  simp [size]

/-! ## Texts that can be handed to the system -/

/-- Whether a code point stands for bytes that a name can have: it is not the end of all
names, and a surrogate only if it is one of those that stand for single bytes. -/
def Stands (c : CodePoint) : Prop :=
  c.code ≠ 0 ∧ (0xD800 ≤ c.code ∧ c.code ≤ 0xDFFF → 0xDC80 ≤ c.code ∧ c.code ≤ 0xDCFF)

/-- Whether a text stands for bytes that a name can have. -/
def Clean (t : Text) : Prop := ∀ c ∈ t, Stands c

instance (c : CodePoint) : Decidable (Stands c) := inferInstanceAs (Decidable (_ ∧ (_ → _)))

instance (t : Text) : Decidable (Clean t) := inferInstanceAs (Decidable (∀ c ∈ t, Stands c))

theorem stands_iff {c : CodePoint} : Stands c ↔ isMeaningless c = false ∧ c.code ≠ 0 := by
  simp only [Stands, isMeaningless, isEscape, CodePoint.isSurrogate, CodePoint.isWithin,
    Bool.and_eq_false_imp, Bool.and_eq_true, Bool.not_eq_false', decide_eq_true_eq]
  exact and_comm

/-- **A text can be handed to the system** if each code point in it can. -/
theorem obstacle?_eq_none_iff {t : Text} : obstacle? t = none ↔ Clean t := by
  have nul : (t.any (·.code = 0)) = false ↔ ∀ c ∈ t, c.code ≠ 0 := by simp
  unfold obstacle? Clean
  simp only [stands_iff, imp_and, forall_and]
  rw [← Utf8.obstacleFrom_eq_none_iff 0, ← nul]
  cases Utf8.obstacleFrom isMeaningless 0 t with
  | some run => simp
  | none => cases t.any (·.code = 0) <;> simp

end Native

end Stencil
