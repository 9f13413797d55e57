import Stencil.Value.Basic

/-!
# Document trees

A parser hands over documents: trees of maps and arrays whose nodes
remember where they were written and which annotations stand on them. Map
entries, array items and documents each hold one value of their own, and
may be annotated apart from it. Below the maps and arrays stand plain
values.

## Main definitions

* `Annotation`, `Mark` — an annotation, and what every node carries.
* `Node` — document trees; `Document` — a marked root with its value.
* `Node.mark?`, `Node.children` — what is common to all nodes.
-/

namespace Stencil

/-- An annotation whose arguments are plain values. -/
abbrev Annotation := AnnotationOf Value

/-- What a node carries: its place and its annotations. -/
abbrev Mark := MarkOf Value

namespace Mark

/-- The mark of a node without annotations. -/
def ofPosition (p : Position) : Mark := ⟨p, []⟩

/-- The annotation of a name. -/
def find? (m : Mark) (name : Text) : Option Annotation :=
  m.annotations.lookup name

/-- Whether an annotation stands on the node. -/
def carries (m : Mark) (name : Text) : Bool := (m.find? name).isSome

end Mark

/-- A marked value: a document, or an item of an array. -/
structure Held (α : Type) where
  mark : Mark
  value : α
  deriving Repr, Inhabited

/-- A marked entry of a map. -/
structure Entry (α : Type) where
  mark : Mark
  key : Value
  value : α
  deriving Repr, Inhabited

/-- Document trees. A `bare` node has a mark and nothing below it. -/
inductive Node where
  | plain (value : Value)
  | bare (mark : Mark)
  | document (content : Held Node)
  | entry (content : Entry Node)
  | item (content : Held Node)
  | map (mark : Mark) (entries : List (Entry Node))
  | array (mark : Mark) (items : List (Held Node))
  deriving Repr

/-- A document: a marked root with one value. -/
abbrev Document := Held Node

namespace Node

instance : Inhabited Node := ⟨.plain .null⟩

/-- The mark of a node; plain values have none. -/
def mark? : Node → Option Mark
  | .plain _ => none
  | .bare m => some m
  | .document d => some d.mark
  | .entry e => some e.mark
  | .item i => some i.mark
  | .map m _ => some m
  | .array m _ => some m

/-- The values directly below a node, in order. -/
def children : Node → List Node
  | .plain _ => []
  | .bare _ => []
  | .document d => [d.value]
  | .entry e => [e.value]
  | .item i => [i.value]
  | .map _ es => es.map .entry
  | .array _ is => is.map .item

/-- The class of a node; a plain value has none. -/
def className : Node → Text
  | .plain _ => ""
  | .bare _ => "Node"
  | .document _ => "Document"
  | .entry _ => "MapItem"
  | .item _ => "ArrayItem"
  | .map _ _ => "Map"
  | .array _ _ => "Array"

end Node

end Stencil
