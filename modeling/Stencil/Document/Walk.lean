import Stencil.Failure

/-!
# Walking a document tree

The nodes of a tree are visited from the top down, an entry or item before
its value and siblings in order. Some annotations may stand on documents
only; splitting a set of documents by such an annotation fails at the first
node that carries it further down.

## Main definitions

* `Node.nodes` — the nodes of a tree in order.
* `Node.get` — the value under a key of a map.
* `Documents.split` — documents with an annotation, and the rest.
-/

namespace Stencil

namespace Node

mutual
/-- The nodes of a tree in order; plain values are no nodes. -/
def nodes : Node → List Node
  | .plain _ => []
  | .bare m => [.bare m]
  | .document d => .document d :: heldNodes d
  | .entry e => .entry e :: entryNodes e
  | .item i => .item i :: heldNodes i
  | .map m es => .map m es :: entriesNodes es
  | .array m is => .array m is :: itemsNodes is

/-- The nodes of a held value. -/
def heldNodes : Held Node → List Node
  | ⟨_, v⟩ => v.nodes

/-- The nodes of an entry's value. -/
def entryNodes : Entry Node → List Node
  | ⟨_, _, v⟩ => v.nodes

/-- The entries of a map, each with the nodes of its value. -/
def entriesNodes : List (Entry Node) → List Node
  | [] => []
  | e :: es => .entry e :: entryNodes e ++ entriesNodes es

/-- The items of an array, each with the nodes of its value. -/
def itemsNodes : List (Held Node) → List Node
  | [] => []
  | i :: is => .item i :: heldNodes i ++ itemsNodes is
end

/-- The value of the first entry of a map whose key equals `key`. -/
def get (key : Value) (entries : List (Entry Node)) (default : Node) : Node :=
  match entries.find? fun e => e.key.equal key with
  | some e => e.value
  | none => default

/-- Whether a node carries an annotation. -/
def carries (name : Text) (n : Node) : Bool :=
  match n.mark? with
  | some m => m.carries name
  | none => false

/-- The place of a node. -/
def position (n : Node) : Position :=
  match n.mark? with
  | some m => m.position
  | none => .unknown

end Node

namespace Documents

/-- The problem of an annotation that does not stand on a document. -/
def misplaced (name : Text) (n : Node) : Diagnostic :=
  .atPosition n.position
    ("expected @" ++ name ++ " annotation to be attached to a document")
    "document" n.className.toLower

/-- The first node below the root of some documents that carries an
annotation. -/
def firstMisplaced (name : Text) (docs : List Document) : Option Node :=
  (docs.flatMap fun d => d.value.nodes).find? (Node.carries name)

/-- Items whose documents carry an annotation, and the others, both in
order, unless a node further down in a document carries it. -/
def splitBy {α : Type} (document : α → Document) (name : Text) (items : List α) :
    Except Failure (List α × List α) :=
  match firstMisplaced name (items.map document) with
  | some n => Error.throw (.annotationSyntax (misplaced name n))
  | none => .ok (items.partition fun i => (document i).mark.carries name)

/-- The documents that carry an annotation, and the others. -/
def split (name : Text) (docs : List Document) :
    Except Failure (List Document × List Document) :=
  splitBy id name docs

end Documents

end Stencil
