import Stencil.Document.Node

/-!
# Merging documents

A document laid over another keeps the place and the annotations of the one
below. A map laid over a map goes through its entries in order: the first
entry below with an equal key is merged with it if both hold maps, and is
replaced by it otherwise; an entry without a counterpart comes last. Every
other value replaces what it is laid over.

## Main definitions

* `Node.mergeOver` — a node laid over another.
* `Document.mergeOver` — a document laid over another.
-/

namespace Stencil

/-- Entries in which the first one with the key of `e` is changed, or `e`
is added at the end if none has it. -/
def Entry.putOver {α : Type} (change : Entry α → Entry α) (e : Entry α) :
    List (Entry α) → List (Entry α)
  | [] => [e]
  | b :: es => if b.key.equal e.key then change b :: es else b :: putOver change e es

namespace Node

mutual
/-- The node that is left when `patch` is laid over `base`. -/
def mergeOver (patch base : Node) : Node :=
  match patch with
  | .map m ps =>
    match base with
    | .map below es => .map below (mergeEntriesOver ps es)
    | _ => .map m ps
  | n => n

/-- The entries that are left when others are laid over them one by one. -/
def mergeEntriesOver : List (Entry Node) → List (Entry Node) → List (Entry Node)
  | [], es => es
  | e :: ps, es => mergeEntriesOver ps (Entry.putOver (mergeEntryOver e) e es)

/-- The entry that is left when `patch` is laid over `base`: both hold maps,
or the patch replaces it. -/
def mergeEntryOver (patch base : Entry Node) : Entry Node :=
  match patch with
  | ⟨m, k, v⟩ =>
    match v, base.value with
    | .map _ _, .map _ _ => { base with value := mergeOver v base.value }
    | _, _ => ⟨m, k, v⟩
end

end Node

/-- A document laid over another. -/
def Document.mergeOver (patch base : Document) : Document :=
  { base with value := patch.value.mergeOver base.value }

end Stencil
