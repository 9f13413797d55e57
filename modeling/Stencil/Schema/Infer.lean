import Stencil.Document.Walk
import Stencil.Schema.Override

/-!
# The type of a declared value

A schema document declares types by example: every value stands for the
type of its kind and is its own default. Annotations decide otherwise where
they stand. A map declares its keys, and the first item of an array
describes all items; an empty array says nothing about them.

The type of a node's first value is needed twice, once for the annotation
that wraps it and once for the node itself, and is computed once.

## Main definitions

* `Node.inferType` — the type that a node declares.
* `Node.overrides`, `Node.resolveType` — the overrides on a node, and the
  type they decide.
-/

namespace Stencil

/-- The type that a plain value declares. -/
def Value.declaredType (p : Position) (v : Value) : SchemaType :=
  if v.kind.isScalar then .scalar p v.kind.name v else .any p v

/-- A type decided by annotations; one that accepts anything defaults to
the value that the node declares. -/
def withDeclared (declared : Except Failure Value) :
    SchemaType → Except Failure SchemaType
  | .any p _ => do return .any p (← declared)
  | t => .ok t

/-- The type of a node: the one that its annotations decide, or else the
one that its value has. -/
def overriddenType (m : Mark) (valueType : Option (Except Failure SchemaType))
    (declared : Except Failure Value) (own : Except Failure SchemaType) :
    Except Failure SchemaType := do
  match ← Override.resolve m valueType with
  | some t => withDeclared declared t
  | none => own

/-- The items of a map type; a repeated key keeps its place and takes the
last type. -/
def declaredItems : List (Value × Except Failure SchemaType) →
    Except Failure (List (Value × SchemaType))
  | [] => .ok []
  | (k, r) :: rest => do
    let t ← r
    let key ← checkedKey k
    return (key, t) :: (← declaredItems rest)

namespace Node

mutual
/-- The type that a node declares; `p` is the place of a plain value. -/
def inferType (p : Position) : Node → Except Failure SchemaType
  | .plain v => .ok (v.declaredType p)
  | .bare m => overriddenType m none (.ok .null) (.ok (.any m.position (.node m)))
  | .document d => heldType d
  | .entry e => entryType e
  | .item i => heldType i
  | .map m es =>
    let types := entryTypes es
    overriddenType m (types.head?.map (·.2)) (toPlain (.map m es)) do
      return .map m.position (Keyed.ofList (← declaredItems types))
  | .array m is =>
    let types := itemTypes is
    overriddenType m types.head? (toPlain (.array m is)) do
      match types.head? with
      | some t => return .array m.position (← t)
      | none => return .array m.position (.any m.position .null)

/-- The type that a document or an array item declares. -/
def heldType : Held Node → Except Failure SchemaType
  | ⟨m, v⟩ =>
    let inner := inferType m.position v
    overriddenType m (some inner) v.toPlain inner

/-- The type that a map entry declares. -/
def entryType : Entry Node → Except Failure SchemaType
  | ⟨m, _, v⟩ =>
    let inner := inferType m.position v
    overriddenType m (some inner) v.toPlain inner

/-- The keys of a map with the types they declare. -/
def entryTypes : List (Entry Node) → List (Value × Except Failure SchemaType)
  | [] => []
  | e :: es => (e.key, entryType e) :: entryTypes es

/-- The types that the items of an array declare. -/
def itemTypes : List (Held Node) → List (Except Failure SchemaType)
  | [] => []
  | i :: is => heldType i :: itemTypes is
end

/-- The type of the first value directly below a node. -/
def firstType (n : Node) : Option (Except Failure SchemaType) :=
  n.children.head?.map (inferType n.position)

/-- The overrides on a node. -/
def overrides (n : Node) : Except Failure (List Override) :=
  match n.mark? with
  | some m => Override.collect m n.firstType
  | none => .ok []

/-- The type that the annotations of a node decide, if they decide one. -/
def resolveType (n : Node) : Except Failure (Option SchemaType) :=
  match n.mark? with
  | some m => Override.resolve m n.firstType
  | none => .ok none

end Node

end Stencil
