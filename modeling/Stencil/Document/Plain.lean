import Stencil.Failure
import Stencil.Value.Keyed

/-!
# Documents and plain values

A document tree has a plain value: maps and arrays lose their marks,
documents, entries and items give way to what they hold. The way back
wraps the maps and lists of a plain value in nodes that all have the same
mark. A map node may hold keys that a plain map cannot, so the first
direction can fail; and it may repeat a key, in which case the first key
and place and the last value remain.

## Main definitions

* `Node.toPlain` — the plain value of a tree.
* `Node.ofPlain` — a plain value as a tree.
-/

namespace Stencil

/-- A key of a plain map, unless its kind forbids that. -/
def checkedKey (key : Value) : Except Failure Value :=
  match key.unhashable? with
  | some kind => Fault.throw (.unhashable kind)
  | none => .ok key

namespace Node

mutual
/-- The plain value of a tree. A bare node holds nothing that could remain
without its mark and stands for itself. -/
def toPlain : Node → Except Failure Value
  | .plain v => .ok v
  | .bare m => .ok (.node m)
  | .document d => heldPlain d
  | .entry e => entryPlain e
  | .item i => heldPlain i
  | .map _ es => do return .map (Keyed.ofList (← entriesPlain es))
  | .array _ is => do return .list (← itemsPlain is)

/-- The plain value of a held node. -/
def heldPlain : Held Node → Except Failure Value
  | ⟨_, v⟩ => v.toPlain

/-- The plain value of an entry's node. -/
def entryPlain : Entry Node → Except Failure Value
  | ⟨_, _, v⟩ => v.toPlain

/-- The keys of a map with their plain values, repeated keys included. -/
def entriesPlain : List (Entry Node) → Except Failure (List (Value × Value))
  | [] => .ok []
  | ⟨_, k, v⟩ :: es => do
    let value ← v.toPlain
    let key ← checkedKey k
    return (key, value) :: (← entriesPlain es)

/-- The plain items of an array. -/
def itemsPlain : List (Held Node) → Except Failure (List Value)
  | [] => .ok []
  | ⟨_, v⟩ :: is => do
    let value ← v.toPlain
    return value :: (← itemsPlain is)
end

mutual
/-- A plain value as a tree whose nodes all have one mark, except that a node
in it keeps its own. -/
def ofPlain (m : Mark) : Value → Node
  | .map es => .map m (entriesOfPlain m es)
  | .list xs => .array m (itemsOfPlain m xs)
  | .node own => .bare own
  | v => .plain v

/-- Plain entries as map entries. -/
def entriesOfPlain (m : Mark) : List (Value × Value) → List (Entry Node)
  | [] => []
  | (k, v) :: es => ⟨m, k, ofPlain m v⟩ :: entriesOfPlain m es

/-- Plain elements as array items. -/
def itemsOfPlain (m : Mark) : List Value → List (Held Node)
  | [] => []
  | x :: xs => ⟨m, ofPlain m x⟩ :: itemsOfPlain m xs
end

end Node

end Stencil
