import Mathlib.Data.List.Forall2
import Stencil.Value.Keyed

/-!
# Keys that differ

Every value is the same key as itself, a NaN and an object included. Entries
whose keys differ are found by their keys, and writing them one by one gives
them back as they are; and whatever pairs are written, the keys that are left
differ.

## Main definitions

* `Keyed.Distinct` — entries whose keys differ.
* `Keyed.Aligned` — two lists of entries under the same keys in the same order.

## Main results

* `Value.same_self` — a value is the same key as itself.
* `Keyed.ofList_distinct`, `Keyed.ofList_keys` — the keys that are left after
  writing differ, and which they are.
* `Keyed.ofList_of_distinct` — entries whose keys differ stay as they are.
* `Keyed.Aligned.ofList` — writing aligned pairs leaves aligned entries.
-/

namespace Stencil

namespace Value

/-! ## A value is the same key as itself -/

mutual
theorem same_self : (v : Value) → v.same v = true
  | .null => by simp [same]
  | .bool b => by simp [same, number?]
  | .int n => by simp [same, number?]
  | .float x => by
      simp only [same, number?]
      cases x.integer? <;> simp
  | .str t => by simp [same]
  | .bytes bs => by simp [same]
  | .date d => by simp [same]
  | .object i => by simp [same]
  | .list xs => by
      simp only [same]
      exact sameItems_self xs
  | .tuple xs => by
      simp only [same]
      exact sameItems_self xs
  | .map es => by
      simp only [same, decide_true, Bool.true_and]
      exact entriesWithin_of_subset es es (List.Subset.refl _)
  | .node ⟨p, as⟩ => by
      simp only [same, decide_true, Bool.true_and]
      exact annotationsWithin_of_subset as as (List.Subset.refl _)

theorem sameItems_self : (xs : List Value) → sameItems xs xs = true
  | [] => by simp [sameItems]
  | x :: xs => by
      simp only [sameItems, Bool.and_eq_true]
      exact ⟨same_self x, sameItems_self xs⟩

/-- Entries are within all entries that they are among: each is found as
itself. -/
theorem entriesWithin_of_subset :
    (es fs : List (Value × Value)) → es ⊆ fs → entriesWithin es fs = true
  | [], _, _ => by simp [entriesWithin]
  | (k, v) :: es, fs, h => by
      have hmem : (k, v) ∈ fs := h (List.mem_cons_self ..)
      have hfound : (k.same k && v.same v) = true := by rw [same_self k, same_self v]; rfl
      simp only [entriesWithin, Bool.and_eq_true, List.any_eq_true]
      exact ⟨⟨(k, v), hmem, by simpa using hfound⟩,
        entriesWithin_of_subset es fs fun e he => h (List.mem_cons_of_mem _ he)⟩

theorem annotationsWithin_of_subset :
    (as bs : List (Text × AnnotationOf Value)) → as ⊆ bs → annotationsWithin as bs = true
  | [], _, _ => by simp [annotationsWithin]
  | (name, ⟨args, kwargs⟩) :: as, bs, h => by
      have hmem : (name, ⟨args, kwargs⟩) ∈ bs := h (List.mem_cons_self ..)
      have hargs : sameItems args args = true := sameItems_self args
      have hkwargs : sameNamed kwargs kwargs = true := sameNamed_self kwargs
      simp only [annotationsWithin, Bool.and_eq_true, List.any_eq_true]
      exact ⟨⟨(name, ⟨args, kwargs⟩), hmem, by simp [hargs, hkwargs]⟩,
        annotationsWithin_of_subset as bs fun a ha => h (List.mem_cons_of_mem _ ha)⟩

theorem sameNamed_self : (xs : List (Text × Value)) → sameNamed xs xs = true
  | [] => by simp [sameNamed]
  | (m, x) :: xs => by
      simp only [sameNamed, decide_true, Bool.true_and, Bool.and_eq_true]
      exact ⟨same_self x, sameNamed_self xs⟩
end

end Value

namespace Keyed

variable {α : Type}

/-- Whether the keys of entries differ: none is the same as a later one. -/
def Distinct (es : List (Value × α)) : Prop := es.Pairwise fun a b => a.1.same b.1 = false

/-- What is found stands under a key that is the same. -/
theorem find?_eq_some {es : List (Value × α)} {key : Value} {a : α} (h : find? key es = some a) :
    ∃ k, (k, a) ∈ es ∧ k.same key = true := by
  induction es with
  | nil => cases h
  | cons e es ih =>
      rw [find?] at h
      split at h
      · next hsame =>
          cases h
          exact ⟨e.1, List.mem_cons_self .., hsame⟩
      · obtain ⟨k, mem, hsame⟩ := ih h
        exact ⟨k, List.mem_cons_of_mem _ mem, hsame⟩

/-- What is found under the key of an entry, if the keys differ, is the
entry. -/
theorem find?_of_mem {es : List (Value × α)} (h : Distinct es) {k : Value} {a : α}
    (mem : (k, a) ∈ es) : find? k es = some a := by
  induction es with
  | nil => cases mem
  | cons e es ih =>
      obtain ⟨hhead, htail⟩ := List.pairwise_cons.mp h
      rcases List.mem_cons.mp mem with rfl | mem
      · rw [find?, if_pos (Value.same_self k)]
      · have hne : e.1.same k = false := hhead _ mem
        rw [find?, hne]
        exact ih htail mem

/-! ## Writing under keys -/

/-- The keys after writing: an old key is kept, and a new one comes last. -/
theorem insert_keys (k : Value) (a : α) (es : List (Value × α)) :
    (insert k a es).map (·.1) =
      if es.any (·.1.same k) then es.map (·.1) else es.map (·.1) ++ [k] := by
  induction es with
  | nil => rfl
  | cons e es ih =>
      cases hk : e.1.same k with
      | true => simp [insert, hk]
      | false =>
          have hkeys : (insert k a (e :: es)).map (·.1) = e.1 :: (insert k a es).map (·.1) := by
            simp [insert, hk]
          rw [hkeys, ih, List.any_cons, hk, Bool.false_or, List.map_cons]
          split <;> rfl

/-- An entry after writing is an old one, or the new value under an old key
or the new one. -/
theorem mem_insert {k : Value} {a : α} {es : List (Value × α)} {e : Value × α}
    (h : e ∈ insert k a es) :
    e ∈ es ∨ e.2 = a ∧ (e.1 = k ∨ e.1 ∈ es.map (·.1)) := by
  induction es with
  | nil =>
      rw [insert, List.mem_singleton] at h
      exact .inr ⟨congrArg Prod.snd h, .inl (congrArg Prod.fst h)⟩
  | cons f es ih =>
      rw [insert] at h
      split at h
      · rcases List.mem_cons.mp h with rfl | h
        · exact .inr ⟨rfl, .inr (List.mem_cons_self ..)⟩
        · exact .inl (List.mem_cons_of_mem _ h)
      · rcases List.mem_cons.mp h with rfl | h
        · exact .inl (List.mem_cons_self ..)
        · rcases ih h with h | ⟨ha, hk | hk⟩
          · exact .inl (List.mem_cons_of_mem _ h)
          · exact .inr ⟨ha, .inl hk⟩
          · exact .inr ⟨ha, .inr (List.mem_cons_of_mem _ hk)⟩

/-- Distinctness is a matter of the keys alone. -/
theorem distinct_iff_keys {es : List (Value × α)} :
    Distinct es ↔ (es.map (·.1)).Pairwise fun a b => a.same b = false := by
  rw [List.pairwise_map]
  rfl

theorem insert_distinct {k : Value} {a : α} {es : List (Value × α)} (h : Distinct es) :
    Distinct (insert k a es) := by
  rw [distinct_iff_keys] at h ⊢
  rw [insert_keys]
  split
  · exact h
  · next hnew =>
      rw [List.pairwise_append]
      refine ⟨h, List.pairwise_singleton _ _, ?_⟩
      intro b hb c hc
      obtain ⟨e, he, rfl⟩ := List.mem_map.mp hb
      rw [List.mem_singleton.mp hc]
      have hall : ∀ x ∈ es, ¬ x.1.same k = true := by simpa using hnew
      simpa using hall e he

/-- **The keys that are left** after writing pairs one by one differ. -/
theorem ofList_distinct (pairs : List (Value × α)) : Distinct (ofList pairs) := by
  suffices hsuff : ∀ es : List (Value × α), Distinct es →
      Distinct (pairs.foldl (fun es p => insert p.1 p.2 es) es) from
    hsuff [] List.Pairwise.nil
  induction pairs with
  | nil => exact fun es h => h
  | cons p pairs ih => exact fun es h => ih _ (insert_distinct h)

/-- The keys that are left are those that were written, without the ones that are
the same as an earlier one. -/
theorem ofList_keys (pairs : List (Value × α)) :
    (ofList pairs).map (·.1) = (pairs.map (·.1)).eraseDupsBy fun new old => old.same new := by
  suffices hsuff : ∀ es : List (Value × α),
      (pairs.foldl (fun es p => insert p.1 p.2 es) es).map (·.1) =
        List.eraseDupsBy.loop (fun new old => old.same new) (pairs.map (·.1)) (es.map (·.1)).reverse from
    hsuff []
  induction pairs with
  | nil => simp [List.eraseDupsBy.loop]
  | cons p pairs ih =>
      intro es
      have seen : (es.map (·.1)).reverse.any (fun old => old.same p.1) = es.any (·.1.same p.1) := by
        rw [List.any_reverse, List.any_map]
        rfl
      rw [List.foldl_cons, ih, insert_keys, List.map_cons, List.eraseDupsBy.loop, seen]
      cases es.any (·.1.same p.1) <;> simp

/-- What holds of the key and the value of every pair holds of the key and
the value of every entry that is left. -/
theorem forall_mem_ofList {P : Value → Prop} {Q : α → Prop} {pairs : List (Value × α)}
    (h : ∀ p ∈ pairs, P p.1 ∧ Q p.2) : ∀ e ∈ ofList pairs, P e.1 ∧ Q e.2 := by
  suffices hsuff : ∀ es : List (Value × α), (∀ e ∈ es, P e.1 ∧ Q e.2) →
      ∀ e ∈ pairs.foldl (fun es p => insert p.1 p.2 es) es, P e.1 ∧ Q e.2 from
    hsuff [] nofun
  induction pairs with
  | nil => exact fun es h => h
  | cons p pairs ih =>
      intro es hes
      obtain ⟨hp, hpairs⟩ := List.forall_mem_cons.mp h
      refine ih hpairs _ fun e he => ?_
      rcases mem_insert he with he | ⟨ha, hk | hk⟩
      · exact hes e he
      · exact ⟨hk ▸ hp.1, ha ▸ hp.2⟩
      · obtain ⟨f, hf, hkey⟩ := List.mem_map.mp hk
        exact ⟨hkey ▸ (hes f hf).1, ha ▸ hp.2⟩

/-- A new key goes to the end. -/
private theorem insert_of_new {k : Value} {a : α} {es : List (Value × α)}
    (h : ∀ e ∈ es, e.1.same k = false) : insert k a es = es ++ [(k, a)] := by
  induction es with
  | nil => rfl
  | cons e es ih =>
      obtain ⟨he, hes⟩ := List.forall_mem_cons.mp h
      rw [insert, he, ih hes]
      rfl

/-- **Entries whose keys differ** stay as they are. -/
theorem ofList_of_distinct {es : List (Value × α)} (h : Distinct es) : ofList es = es := by
  suffices hsuff : ∀ before : List (Value × α), Distinct (before ++ es) →
      es.foldl (fun es p => insert p.1 p.2 es) before = before ++ es from
    hsuff [] h
  clear h
  induction es with
  | nil => intro before _; exact (List.append_nil before).symm
  | cons e es ih =>
      intro before h
      have hnew : ∀ b ∈ before, b.1.same e.1 = false :=
        fun b hb => (List.pairwise_append.mp h).2.2 b hb e (List.mem_cons_self ..)
      rw [List.foldl_cons, insert_of_new hnew]
      have h' : Distinct (before ++ [(e.1, e.2)] ++ es) := by
        rw [List.append_assoc]
        exact h
      rw [ih _ h', List.append_assoc]
      rfl

/-- **The first entry** stays the first if its key is not written again. -/
theorem ofList_cons {e : Value × α} {pairs : List (Value × α)}
    (single : ∀ p ∈ pairs, e.1.same p.1 = false) : ∃ es, ofList (e :: pairs) = e :: es := by
  refine List.foldlRecOn (motive := fun es : List (Value × α) => ∃ rest, es = e :: rest) pairs _
    ⟨[], rfl⟩ ?_
  rintro _ ⟨rest, rfl⟩ p hp
  exact ⟨insert p.1 p.2 rest, by rw [insert, single p hp]; rfl⟩

/-! ## The same keys in the same order -/

variable {β : Type}

/-- Whether two lists of entries have the same keys in the same order, and what
stands under each key in one is related to what stands there in the other. -/
def Aligned (R : α → β → Prop) : List (Value × α) → List (Value × β) → Prop :=
  List.Forall₂ fun a b => a.1 = b.1 ∧ R a.2 b.2

namespace Aligned

variable {R : α → β → Prop} {as : List (Value × α)} {bs : List (Value × β)}

/-- What is found under a key in one list is related to what is found there in
the other. -/
theorem find? (h : Aligned R as bs) {k : Value} {b : β} (found : Keyed.find? k bs = some b) :
    ∃ a, Keyed.find? k as = some a ∧ R a b := by
  induction h with
  | nil => cases found
  | @cons x y as bs hhead _ ih =>
      obtain ⟨hkey, hrel⟩ := hhead
      rw [Keyed.find?] at found ⊢
      rw [hkey]
      split at found
      · next hsame =>
          cases found
          exact ⟨x.2, if_pos hsame, hrel⟩
      · next hother =>
          rw [if_neg hother]
          exact ih found

/-- Writing related values under one key keeps lists aligned. -/
theorem insert (h : Aligned R as bs) (k : Value) {a : α} {b : β} (hab : R a b) :
    Aligned R (Keyed.insert k a as) (Keyed.insert k b bs) := by
  induction h with
  | nil => exact .cons ⟨rfl, hab⟩ .nil
  | @cons x y as bs hhead htail ih =>
      obtain ⟨hkey, hrel⟩ := hhead
      rw [Keyed.insert, Keyed.insert, hkey]
      split
      · exact .cons ⟨rfl, hab⟩ htail
      · exact .cons ⟨rfl, hrel⟩ ih

/-- **Writing aligned pairs** one by one leaves aligned entries, whatever keys
are repeated. -/
theorem ofList (h : Aligned R as bs) : Aligned R (Keyed.ofList as) (Keyed.ofList bs) := by
  suffices hsuff : ∀ {before : List (Value × α)} {before' : List (Value × β)},
      Aligned R before before' →
      Aligned R (as.foldl (fun es p => Keyed.insert p.1 p.2 es) before)
        (bs.foldl (fun es p => Keyed.insert p.1 p.2 es) before') from
    hsuff .nil
  induction h with
  | nil => exact fun hbefore => hbefore
  | @cons x y as bs hhead _ ih =>
      intro before before' hbefore
      obtain ⟨hkey, hrel⟩ := hhead
      rw [List.foldl_cons, List.foldl_cons, hkey]
      exact ih (hbefore.insert y.1 hrel)

end Aligned

/-- Values may be changed before or after they are written under their keys. -/
theorem ofList_map (g : α → β) (pairs : List (Value × α)) :
    (ofList pairs).map (fun e => (e.1, g e.2)) = ofList (pairs.map fun p => (p.1, g p.2)) := by
  have aligned : Aligned (fun a b => g a = b) pairs (pairs.map fun p => (p.1, g p.2)) := by
    induction pairs with
    | nil => exact .nil
    | cons p pairs ih => exact .cons ⟨rfl, rfl⟩ ih
  rw [← List.forall₂_eq_eq_eq]
  exact List.forall₂_map_left_iff.mpr (aligned.ofList.imp fun a b h => Prod.ext h.1 h.2)

end Keyed

end Stencil
