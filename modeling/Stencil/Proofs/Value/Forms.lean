import Mathlib.Data.List.Induction
import Stencil.Proofs.Value.Keys

/-!
# The form of a key

Which keys are the same is decided kind by kind, and numbers of different kinds
can be the same key. For values that can be keys it comes down to an equation:
each has a form in which a number has lost its kind, inside tuples too, and
two keys are the same exactly if their forms are equal. So keys that are the
same find the same entry. Lists and maps have no such form, since maps are
compared without regard to order; they cannot be keys.

## Main definitions

* `Value.keyForm` — the form of a key.

## Main results

* `Value.same_iff_keyForm`, `Value.equal_iff_keyForm` — keys are the same if
  their forms are equal, and so are keys that equal themselves.
* `Keyed.find?_same` — what is found under a key is found under each key that
  is the same.
* `Keyed.find?_ofList` — what is found after writing pairs one by one.
-/

namespace Stencil

namespace Value

/-- A number as a value of the plainest kind. -/
def Number.form : Number → Value
  | .integer n => .int n
  | .other x => .float x

mutual
/-- A key in a form that it shares with the keys that are the same. -/
def keyForm : Value → Value
  | .tuple xs => .tuple (keyForms xs)
  | v =>
    match v.number? with
    | some n => n.form
    | none => v

/-- The elements of a tuple in this form. -/
def keyForms : List Value → List Value
  | [] => []
  | x :: xs => x.keyForm :: keyForms xs
end

/-! ## Numbers -/

theorem number?_float (x : Binary64) : ∃ n, (float x).number? = some n := by
  rw [number?]
  cases x.integer? with
  | some n => exact ⟨_, rfl⟩
  | none => exact ⟨_, rfl⟩

theorem keyForm_of_number {v : Value} {n : Number} (h : v.number? = some n) :
    v.keyForm = n.form := by
  cases v with
  | tuple xs => cases h
  | _ => rw [keyForm, h]; nofun

/-- A number is the same key as the values that stand for the same number. -/
theorem same_of_number {a b : Value} {n : Number} (h : a.number? = some n) :
    a.same b = true ↔ b.number? = some n := by
  have by_number : a.same b = (a.number?.isSome && decide (a.number? = b.number?)) := by
    cases a with
    | bool _ | int _ | float _ => rw [same] <;> nofun
    | _ => cases h
  rw [by_number, h]
  simp [eq_comm]

/-- The form of a number is that of no other value. -/
theorem form_eq_keyForm {b : Value} {n : Number} : n.form = b.keyForm ↔ b.number? = some n := by
  constructor
  · intro h
    cases hb : b.number? with
    | some m =>
        rw [keyForm_of_number hb] at h
        cases n <;> cases m <;> cases h <;> rfl
    | none =>
        cases b with
        | tuple xs => cases n <;> (rw [keyForm] at h; cases h)
        | bool _ | int _ => cases hb
        | float x =>
            obtain ⟨m, hm⟩ := number?_float x
            rw [hm] at hb
            cases hb
        | _ =>
            rw [keyForm] at h
            · cases n <;> cases h
            · nofun
  · intro h
    rw [keyForm_of_number h]

theorem same_iff_of_number {a b : Value} {n : Number} (h : a.number? = some n) :
    a.same b = true ↔ a.keyForm = b.keyForm := by
  rw [same_of_number h, keyForm_of_number h, form_eq_keyForm]

/-- For a value that is no number, only other such values matter. -/
theorem same_iff_of_other {a b : Value} (h : a.number? = none)
    (others : b.number? = none → (a.same b = true ↔ a.keyForm = b.keyForm)) :
    a.same b = true ↔ a.keyForm = b.keyForm := by
  cases hb : b.number? with
  | none => exact others hb
  | some n =>
      have not_same : a.same b = false := by
        cases b with
        | bool _ | int _ | float _ =>
            rw [same]
            · rw [h]
              rfl
            all_goals nofun
        | _ => cases hb
      have other_form : a.keyForm ≠ b.keyForm := by
        intro form
        rw [keyForm_of_number hb, eq_comm, form_eq_keyForm, h] at form
        cases form
      simp [not_same, other_form]

/-! ## Keys -/

theorem isHashable_tuple_cons {x : Value} {xs : List Value} :
    (tuple (x :: xs)).isHashable = true ↔ x.isHashable = true ∧ (tuple xs).isHashable = true := by
  simp only [isHashable, unhashable?, firstUnhashable]
  cases x.unhashable? <;> simp

mutual
/-- **Keys are the same** exactly if their forms are equal. -/
theorem same_iff_keyForm : (a : Value) → a.isHashable = true → ∀ {b : Value},
    a.same b = true ↔ a.keyForm = b.keyForm
  | .bool _, _, _ => same_iff_of_number rfl
  | .int _, _, _ => same_iff_of_number rfl
  | .float x, _, _ => same_iff_of_number (number?_float x).choose_spec
  | .null, _, b | .str _, _, b | .bytes _, _, b | .date _, _, b | .object _, _, b =>
      same_iff_of_other rfl fun hb => by cases b <;> simp_all [same, number?, keyForm]
  | .tuple xs, h, b => same_iff_of_other rfl fun hb => by
      cases b with
      | tuple ys =>
          rw [same, keyForm, keyForm, tuple.injEq]
          exact sameItems_iff_keyForms xs h
      | _ => simp_all [same, number?, keyForm]
  | .list _, h, _ => by cases h
  | .map _, h, _ => by cases h
  | .node _, h, _ => by cases h

theorem sameItems_iff_keyForms : (xs : List Value) → (tuple xs).isHashable = true →
    ∀ {ys : List Value}, sameItems xs ys = true ↔ keyForms xs = keyForms ys
  | [], _, ys => by cases ys <;> simp [sameItems, keyForms]
  | x :: xs, h, ys => by
      obtain ⟨hx, hxs⟩ := isHashable_tuple_cons.mp h
      cases ys with
      | nil => simp [sameItems, keyForms]
      | cons y ys =>
          simp only [sameItems, keyForms, Bool.and_eq_true, List.cons.injEq,
            same_iff_keyForm x hx, sameItems_iff_keyForms xs hxs]
end

/-- A key that can be one equals a key that equals itself exactly if their forms
are equal. -/
theorem equal_iff_keyForm {a b : Value} (ha : a.isHashable = true) (hb : b.equal b = true) :
    a.equal b = true ↔ a.keyForm = b.keyForm := by
  rw [← same_iff_keyForm a ha]
  cases a with
  | float x =>
      rw [equal, Bool.and_eq_true, and_iff_right_iff_imp]
      intro hsame
      cases x with
      | nan tag =>
          -- A NaN is the same key as itself only, and that does not equal itself.
          have number : b.number? = some (.other (.nan tag)) := (same_of_number rfl).mp hsame
          cases b with
          | float y =>
              rw [number?] at number
              split at number
              · cases number
              · cases number
                cases hb
          | _ => cases number
      | _ => rfl
  | _ => exact Iff.rfl

/-- A key that equals itself is looked for by either comparison. -/
theorem equal_eq_same {a b : Value} (ha : a.isHashable = true) (hb : b.equal b = true) :
    a.equal b = a.same b := by
  rw [Bool.eq_iff_iff, equal_iff_keyForm ha hb, same_iff_keyForm a ha]

mutual
theorem unhashable?_keyForm : (v : Value) → v.keyForm.unhashable? = v.unhashable?
  | .tuple xs => by
      rw [keyForm, unhashable?, unhashable?]
      exact firstUnhashable_keyForms xs
  | .float x => by
      obtain ⟨n, hn⟩ := number?_float x
      rw [keyForm_of_number hn]
      cases n <;> rfl
  | .null | .bool _ | .int _ | .str _ | .bytes _ | .date _ | .list _ | .map _ | .object _ | .node _ => by
      rfl

theorem firstUnhashable_keyForms : (xs : List Value) →
    firstUnhashable (keyForms xs) = firstUnhashable xs
  | [] => by rw [keyForms]
  | x :: xs => by
      rw [keyForms, firstUnhashable, firstUnhashable, unhashable?_keyForm x,
        firstUnhashable_keyForms xs]
end

/-- A value can be a key exactly if its form can. -/
theorem isHashable_keyForm (v : Value) : v.keyForm.isHashable = v.isHashable := by
  rw [isHashable, isHashable, unhashable?_keyForm]

end Value

namespace Keyed

variable {α : Type} {es : List (Value × α)} {a b : Value} {x : α}

/-- Keys with equal forms find the same entry. -/
theorem find?_congr (hashable : ∀ e ∈ es, e.1.isHashable = true) (form : a.keyForm = b.keyForm) :
    find? a es = find? b es := by
  induction es with
  | nil => rfl
  | cons e es ih =>
      obtain ⟨he, hes⟩ := List.forall_mem_cons.mp hashable
      have hsame : e.1.same a = e.1.same b := by
        rw [Bool.eq_iff_iff, Value.same_iff_keyForm _ he, Value.same_iff_keyForm _ he, form]
      rw [find?, find?, hsame, ih hes]

/-- **What is found under a key** is found under each key that is the same. -/
theorem find?_same (hashable : ∀ e ∈ es, e.1.isHashable = true) (found : find? a es = some x)
    (same : a.same b = true) : find? b es = some x := by
  obtain ⟨k, mem, hk⟩ := find?_eq_some found
  have form : k.keyForm = a.keyForm := (Value.same_iff_keyForm k (hashable _ mem)).mp hk
  have ha : a.isHashable = true := by
    rw [← a.isHashable_keyForm, ← form, k.isHashable_keyForm]
    exact hashable _ mem
  rw [← found, find?_congr hashable ((Value.same_iff_keyForm a ha).mp same)]

/-! ## What is found after writing -/

/-- **After writing under a key**, what was written is found under each key that
is the same, and what was there before under all others. -/
theorem find?_insert (hashable : ∀ e ∈ es, e.1.isHashable = true) (ha : a.isHashable = true) :
    find? b (insert a x es) = if a.same b then some x else find? b es := by
  induction es with
  | nil => rfl
  | cons e es ih =>
      obtain ⟨he, hes⟩ := List.forall_mem_cons.mp hashable
      rw [insert]
      split
      · next hsame =>
          have form : e.1.keyForm = a.keyForm := (Value.same_iff_keyForm _ he).mp hsame
          have alike : e.1.same b = a.same b := by
            rw [Bool.eq_iff_iff, Value.same_iff_keyForm _ he, Value.same_iff_keyForm _ ha, form]
          rw [find?, find?, alike]
          split <;> rfl
      · next hother =>
          rw [find?, find?, ih hes]
          split
          · next hsame =>
              have apart : ¬ a.same b = true := by
                rw [Value.same_iff_keyForm _ he] at hother hsame
                rw [Value.same_iff_keyForm _ ha, ← hsame]
                exact fun form => hother form.symm
              rw [if_neg apart]
          · rfl

/-- **After writing pairs one by one**, what was written last is found. -/
theorem find?_ofList {pairs : List (Value × α)} (hashable : ∀ p ∈ pairs, p.1.isHashable = true) :
    find? b (ofList pairs) = find? b pairs.reverse := by
  induction pairs using List.reverseRecOn with
  | nil => rfl
  | append_singleton pairs p ih =>
      obtain ⟨hpairs, hp⟩ := List.forall_mem_append.mp hashable
      have last : ofList (pairs ++ [p]) = insert p.1 p.2 (ofList pairs) := List.foldl_concat ..
      have kept : ∀ e ∈ ofList pairs, e.1.isHashable = true := fun e he =>
        (forall_mem_ofList (P := fun k => k.isHashable = true) (Q := fun _ => True)
          (fun q hq => ⟨hpairs q hq, trivial⟩) e he).1
      rw [last, find?_insert kept (hp p (List.mem_singleton_self p)), ih hpairs, List.reverse_concat,
        find?]

end Keyed

end Stencil
