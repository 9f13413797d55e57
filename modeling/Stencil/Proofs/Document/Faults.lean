import Stencil.Yaml.Documents

/-!
# How writing documents can fail

A key that cannot be one, a value that has no written form, a text that
cannot be encoded: whatever keeps documents from being written is a fault,
and none of the library's own errors. A wrapper around the writing of
documents therefore always has something to wrap.

## Main definitions

* `OnlyFaults` — a computation that fails with faults only.

## Main results

* `Documents.serialize_onlyFaults` — writing documents is one.
-/

namespace Stencil

variable {α β : Type}

/-- A computation that fails with faults only. -/
def OnlyFaults (e : Except Failure α) : Prop := ∀ x, e = .error x → ∃ f, x = .fault f

namespace OnlyFaults

theorem ok (a : α) : OnlyFaults (.ok a : Except Failure α) := nofun

theorem throw (f : Fault) : OnlyFaults (Fault.throw f : Except Failure α) := by
  intro x h
  cases h
  exact ⟨f, rfl⟩

theorem bind {e : Except Failure α} {k : α → Except Failure β} (he : OnlyFaults e)
    (hk : ∀ a, OnlyFaults (k a)) : OnlyFaults (e >>= k) := by
  cases e with
  | error x =>
      intro y h
      cases h
      exact he x rfl
  | ok a => exact hk a

end OnlyFaults

theorem checkedKey_onlyFaults (key : Value) : OnlyFaults (checkedKey key) := by
  unfold checkedKey
  split
  · exact .throw _
  · exact .ok _

namespace Node

mutual
theorem toPlain_onlyFaults : (n : Node) → OnlyFaults n.toPlain
  | .plain v => .ok v
  | .bare m => .ok (Value.node m)
  | .document d => heldPlain_onlyFaults d
  | .entry e => entryPlain_onlyFaults e
  | .item i => heldPlain_onlyFaults i
  | .map _ es => .bind (entriesPlain_onlyFaults es) fun _ => .ok _
  | .array _ is => .bind (itemsPlain_onlyFaults is) fun _ => .ok _

theorem heldPlain_onlyFaults : (h : Held Node) → OnlyFaults (heldPlain h)
  | ⟨_, v⟩ => toPlain_onlyFaults v

theorem entryPlain_onlyFaults : (e : Entry Node) → OnlyFaults (entryPlain e)
  | ⟨_, _, v⟩ => toPlain_onlyFaults v

theorem entriesPlain_onlyFaults : (es : List (Entry Node)) → OnlyFaults (entriesPlain es)
  | [] => .ok []
  | ⟨_, k, v⟩ :: es =>
    .bind (toPlain_onlyFaults v) fun _ => .bind (checkedKey_onlyFaults k) fun _ =>
      .bind (entriesPlain_onlyFaults es) fun _ => .ok _

theorem itemsPlain_onlyFaults : (is : List (Held Node)) → OnlyFaults (itemsPlain is)
  | [] => .ok []
  | ⟨_, v⟩ :: is =>
    .bind (toPlain_onlyFaults v) fun _ => .bind (itemsPlain_onlyFaults is) fun _ => .ok _
end

end Node

namespace Yaml.Tree

mutual
theorem ofValue_onlyFaults : (v : Value) → OnlyFaults (ofValue v)
  | .null => .ok _
  | .bool _ => .ok _
  | .int _ => .ok _
  | .float _ => .ok _
  | .str _ => .ok _
  | .bytes _ => .ok _
  | .date _ => .ok _
  | .list xs => .bind (ofValues_onlyFaults xs) fun _ => .ok _
  | .tuple xs => .bind (ofValues_onlyFaults xs) fun _ => .ok _
  | .map es => .bind (ofEntries_onlyFaults es) fun _ => .ok _
  | .object _ => .throw _
  | .node _ => .throw _

theorem ofValues_onlyFaults : (vs : List Value) → OnlyFaults (ofValues vs)
  | [] => .ok []
  | x :: xs =>
    .bind (ofValue_onlyFaults x) fun _ => .bind (ofValues_onlyFaults xs) fun _ => .ok _

theorem ofEntries_onlyFaults : (es : List (Value × Value)) → OnlyFaults (ofEntries es)
  | [] => .ok []
  | (k, v) :: es =>
    .bind (ofValue_onlyFaults k) fun _ => .bind (ofValue_onlyFaults v) fun _ =>
      .bind (ofEntries_onlyFaults es) fun _ => .ok _
end

end Yaml.Tree

namespace Documents

theorem encode_onlyFaults (t : Text) : OnlyFaults (encode t) := by
  unfold encode
  split
  · exact .ok _
  · exact .throw _

/-- **Writing documents fails with faults only**: the plain values, the
trees and the bytes are made by computations that raise no error of their
own. -/
theorem serialize_onlyFaults (docs : List Document) : OnlyFaults (serialize docs) :=
  .bind (Node.itemsPlain_onlyFaults docs) fun _ =>
    .bind (Yaml.Tree.ofValues_onlyFaults _) fun _ => encode_onlyFaults _

end Documents

end Stencil
