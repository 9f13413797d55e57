import Stencil.Document.Plain
import Stencil.Proofs.Failure
import Stencil.Proofs.Value.Keys

/-!
# Plain values that come back

A plain value whose maps have keys that can be keys and that differ comes
back when it is wrapped in nodes and unwrapped again. Every plain value that
a document tree gives away is of this sort, whatever keys the tree repeats,
as long as the plain values at its leaves are.

## Main definitions

* `Value.WellKeyed` — values whose maps have keys that differ, down through
  maps and lists.
* `Node.WellKeyed`, `Document.WellKeyed` — trees with such values at their
  leaves.

## Main results

* `Node.toPlain_ofPlain` — wrapping and unwrapping give the value back.
* `Node.toPlain_wellKeyed` — the plain value of a tree is well-keyed.
-/

namespace Stencil

/-! ## Well-keyed values -/

mutual
/-- Whether the keys of every map can be keys and differ, down through maps
and lists. -/
def Value.WellKeyed : Value → Prop
  | .map es => Keyed.Distinct es ∧ EntriesWellKeyed es
  | .list xs => ItemsWellKeyed xs
  | _ => True

/-- Whether all keys can be keys and all values under them are well-keyed. -/
def Value.EntriesWellKeyed : List (Value × Value) → Prop
  | [] => True
  | (k, v) :: es => k.isHashable = true ∧ v.WellKeyed ∧ EntriesWellKeyed es

/-- Whether all elements are well-keyed. -/
def Value.ItemsWellKeyed : List Value → Prop
  | [] => True
  | x :: xs => x.WellKeyed ∧ ItemsWellKeyed xs
end

namespace Value

theorem entriesWellKeyed_iff {es : List (Value × Value)} :
    EntriesWellKeyed es ↔ ∀ e ∈ es, e.1.isHashable = true ∧ e.2.WellKeyed := by
  induction es with
  | nil => simp [EntriesWellKeyed]
  | cons e es ih =>
      obtain ⟨k, v⟩ := e
      simp [EntriesWellKeyed, ih, and_assoc]

/-- The map that is left after writing well-keyed values under keys that can
be keys is well-keyed. -/
theorem wellKeyed_ofList {es : List (Value × Value)} (h : EntriesWellKeyed es) :
    (Value.map (Keyed.ofList es)).WellKeyed := by
  have hes : ∀ e ∈ es, e.1.isHashable = true ∧ e.2.WellKeyed := entriesWellKeyed_iff.mp h
  refine ⟨Keyed.ofList_distinct es, entriesWellKeyed_iff.mpr ?_⟩
  exact Keyed.forall_mem_ofList (P := fun k => k.isHashable = true) (Q := Value.WellKeyed) hes

end Value

theorem checkedKey_of_hashable {key : Value} (h : key.isHashable = true) :
    checkedKey key = .ok key := by
  unfold checkedKey
  have hnone : key.unhashable? = none := by simpa [Value.isHashable] using h
  rw [hnone]

theorem checkedKey_eq_ok {key k : Value} (h : checkedKey key = .ok k) :
    k = key ∧ key.isHashable = true := by
  unfold checkedKey at h
  cases hk : key.unhashable? with
  | some kind => rw [hk] at h; cases h
  | none =>
      rw [hk] at h
      cases h
      exact ⟨rfl, by simp [Value.isHashable, hk]⟩

namespace Node

/-! ## There and back -/

mutual
/-- **A well-keyed value comes back** when it is wrapped and unwrapped. -/
theorem toPlain_ofPlain (m : Mark) : (v : Value) → v.WellKeyed → (ofPlain m v).toPlain = .ok v
  | .map es, h => by
      rw [ofPlain, toPlain, entriesPlain_ofPlain m es h.2]
      show Except.ok (Value.map (Keyed.ofList es)) = .ok (.map es)
      rw [Keyed.ofList_of_distinct h.1]
  | .list xs, h => by
      rw [ofPlain, toPlain, itemsPlain_ofPlain m xs h]
      rfl
  | .null, _ => by rw [ofPlain, toPlain] <;> nofun
  | .bool _, _ => by rw [ofPlain, toPlain] <;> nofun
  | .int _, _ => by rw [ofPlain, toPlain] <;> nofun
  | .float _, _ => by rw [ofPlain, toPlain] <;> nofun
  | .str _, _ => by rw [ofPlain, toPlain] <;> nofun
  | .bytes _, _ => by rw [ofPlain, toPlain] <;> nofun
  | .date _, _ => by rw [ofPlain, toPlain] <;> nofun
  | .tuple _, _ => by rw [ofPlain, toPlain] <;> nofun
  | .object _, _ => by rw [ofPlain, toPlain] <;> nofun
  | .node _, _ => by rw [ofPlain, toPlain]

theorem entriesPlain_ofPlain (m : Mark) : (es : List (Value × Value)) →
    Value.EntriesWellKeyed es → entriesPlain (entriesOfPlain m es) = .ok es
  | [], _ => by rw [entriesOfPlain, entriesPlain]
  | (k, v) :: es, h => by
      obtain ⟨hk, hv, hes⟩ := h
      rw [entriesOfPlain, entriesPlain, toPlain_ofPlain m v hv, checkedKey_of_hashable hk,
        entriesPlain_ofPlain m es hes]
      rfl

theorem itemsPlain_ofPlain (m : Mark) : (xs : List Value) → Value.ItemsWellKeyed xs →
    itemsPlain (itemsOfPlain m xs) = .ok xs
  | [], _ => by rw [itemsOfPlain, itemsPlain]
  | x :: xs, h => by
      rw [itemsOfPlain, itemsPlain, toPlain_ofPlain m x h.1, itemsPlain_ofPlain m xs h.2]
      rfl
end

/-! ## What a tree gives away -/

/-- The plain entries of a map are its keys with the plain values under them. -/
theorem entriesPlain_eq_ok {es : List (Entry Node)} : ∀ {plain : List (Value × Value)},
    entriesPlain es = .ok plain →
      List.Forall₂ (fun e p => e.key = p.1 ∧ e.key.isHashable = true ∧ e.value.toPlain = .ok p.2)
        es plain := by
  induction es with
  | nil =>
      intro plain h
      rw [entriesPlain] at h
      cases h
      exact .nil
  | cons e es ih =>
      intro plain h
      rw [entriesPlain] at h
      obtain ⟨v, hv, h⟩ := bind_eq_ok.mp h
      obtain ⟨key, hkey, h⟩ := bind_eq_ok.mp h
      obtain ⟨rest, hrest, h⟩ := bind_eq_ok.mp h
      obtain ⟨rfl, hashable⟩ := checkedKey_eq_ok hkey
      cases h
      exact .cons ⟨rfl, hashable, hv⟩ (ih hrest)

theorem entriesPlain_keys {es : List (Entry Node)} {plain : List (Value × Value)}
    (h : entriesPlain es = .ok plain) : plain.map (·.1) = es.map (·.key) := by
  have each := entriesPlain_eq_ok h
  clear h
  induction each with
  | nil => rfl
  | cons one _ ih => rw [List.map_cons, List.map_cons, ih, one.1]

/-- The plain items of an array are the plain values that it holds. -/
theorem itemsPlain_eq_ok {is : List (Held Node)} : ∀ {plain : List Value},
    itemsPlain is = .ok plain → List.Forall₂ (fun i v => i.value.toPlain = .ok v) is plain := by
  induction is with
  | nil =>
      intro plain h
      rw [itemsPlain] at h
      cases h
      exact .nil
  | cons i is ih =>
      intro plain h
      rw [itemsPlain] at h
      obtain ⟨v, hv, h⟩ := bind_eq_ok.mp h
      obtain ⟨rest, hrest, h⟩ := bind_eq_ok.mp h
      cases h
      exact .cons hv (ih hrest)

mutual
/-- Whether the plain values at the leaves of a tree are well-keyed. -/
def WellKeyed : Node → Prop
  | .plain v => v.WellKeyed
  | .bare _ => True
  | .document d => HeldWellKeyed d
  | .entry e => EntryWellKeyed e
  | .item i => HeldWellKeyed i
  | .map _ es => EntriesWellKeyed es
  | .array _ is => ItemsWellKeyed is

/-- Whether the leaves of a held node are well-keyed. -/
def HeldWellKeyed : Held Node → Prop
  | ⟨_, v⟩ => v.WellKeyed

/-- Whether the leaves below an entry are well-keyed. -/
def EntryWellKeyed : Entry Node → Prop
  | ⟨_, _, v⟩ => v.WellKeyed

/-- Whether the leaves below the entries of a map are well-keyed. -/
def EntriesWellKeyed : List (Entry Node) → Prop
  | [] => True
  | e :: es => EntryWellKeyed e ∧ EntriesWellKeyed es

/-- Whether the leaves below the items of an array are well-keyed. -/
def ItemsWellKeyed : List (Held Node) → Prop
  | [] => True
  | i :: is => HeldWellKeyed i ∧ ItemsWellKeyed is
end

mutual
/-- **The plain value of a tree** is well-keyed if its leaves are. -/
theorem toPlain_wellKeyed : (n : Node) → n.WellKeyed → ∀ {v : Value}, n.toPlain = .ok v →
    v.WellKeyed
  | .plain v, h, _, hv => by
      rw [toPlain] at hv
      cases hv
      exact h
  | .bare m, _, _, hv => by
      rw [toPlain] at hv
      cases hv
      trivial
  | .document d, h, _, hv => heldPlain_wellKeyed d h hv
  | .entry e, h, _, hv => entryPlain_wellKeyed e h hv
  | .item i, h, _, hv => heldPlain_wellKeyed i h hv
  | .map _ es, h, v, hv => by
      rw [toPlain] at hv
      obtain ⟨plain, hes, heq⟩ := bind_eq_ok.mp hv
      cases heq
      exact Value.wellKeyed_ofList (entriesPlain_wellKeyed es h hes)
  | .array _ is, h, v, hv => by
      rw [toPlain] at hv
      obtain ⟨plain, his, heq⟩ := bind_eq_ok.mp hv
      cases heq
      exact itemsPlain_wellKeyed is h his

theorem heldPlain_wellKeyed : (i : Held Node) → HeldWellKeyed i → ∀ {v : Value},
    heldPlain i = .ok v → v.WellKeyed
  | ⟨_, n⟩, h, _, hv => toPlain_wellKeyed n h hv

theorem entryPlain_wellKeyed : (e : Entry Node) → EntryWellKeyed e → ∀ {v : Value},
    entryPlain e = .ok v → v.WellKeyed
  | ⟨_, _, n⟩, h, _, hv => toPlain_wellKeyed n h hv

theorem entriesPlain_wellKeyed : (es : List (Entry Node)) → EntriesWellKeyed es →
    ∀ {plain : List (Value × Value)}, entriesPlain es = .ok plain → Value.EntriesWellKeyed plain
  | [], _, _, hv => by
      rw [entriesPlain] at hv
      cases hv
      trivial
  | ⟨_, k, n⟩ :: es, h, _, hv => by
      rw [entriesPlain] at hv
      obtain ⟨v, hn, hv⟩ := bind_eq_ok.mp hv
      obtain ⟨key, hkey, hv⟩ := bind_eq_ok.mp hv
      obtain ⟨rest, hes, heq⟩ := bind_eq_ok.mp hv
      obtain ⟨rfl, hashable⟩ := checkedKey_eq_ok hkey
      cases heq
      exact ⟨hashable, toPlain_wellKeyed n h.1 hn, entriesPlain_wellKeyed es h.2 hes⟩

theorem itemsPlain_wellKeyed : (is : List (Held Node)) → ItemsWellKeyed is →
    ∀ {plain : List Value}, itemsPlain is = .ok plain → Value.ItemsWellKeyed plain
  | [], _, _, hv => by
      rw [itemsPlain] at hv
      cases hv
      trivial
  | ⟨_, n⟩ :: is, h, _, hv => by
      rw [itemsPlain] at hv
      obtain ⟨v, hn, hv⟩ := bind_eq_ok.mp hv
      obtain ⟨rest, his, heq⟩ := bind_eq_ok.mp hv
      cases heq
      exact ⟨toPlain_wellKeyed n h.1 hn, itemsPlain_wellKeyed is h.2 his⟩
end

end Node

/-- Whether the plain values at the leaves of a document are well-keyed. -/
def Document.WellKeyed (d : Document) : Prop := Node.HeldWellKeyed d

end Stencil
