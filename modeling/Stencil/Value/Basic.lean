import Stencil.Document.Mark
import Stencil.Number.Binary64

/-!
# Plain values

A plain value is what remains of a document when positions and annotations
are gone: null, truth values, numbers, texts, byte strings, dates, lists,
tuples, and maps whose keys are values again and keep the order in which
they were first written. An `object` is a value of a kind that the library
knows nothing about; only its identity matters. A `node` is a document node
without content: there is nothing below its mark that could remain, so it
stands for itself.

Numbers of different kinds are equal when they stand for the same number,
so `1`, `1.0` and `true` are one key. A key is found by `same`, which
takes a NaN or an object for itself; `equal` is the comparison of values,
under which a NaN equals nothing.

## Main definitions

* `Value` — plain values.
* `Value.number?` — the number that a truth value, integer or
  floating-point value stands for, in a form that does not depend on its
  kind.
* `Value.same`, `Value.equal` — equality of keys and of values.
* `Value.Kind` — the kinds, each with a name for schemas and one for types.
* `Value.unhashable?` — the kind that keeps a value from being a key.
-/

namespace Stencil

/-- A calendar date. -/
structure Date where
  year : Nat
  month : Nat
  day : Nat
  deriving DecidableEq, Repr

/-- The ISO form of a date. -/
def Date.text (d : Date) : Text :=
  Text.paddedDigits 10 4 d.year ++ "-" ++ Text.paddedDigits 10 2 d.month ++ "-" ++
    Text.paddedDigits 10 2 d.day

/-- Plain values. Map entries are in the order of first insertion. -/
inductive Value where
  | null
  | bool (b : Bool)
  | int (n : Int)
  | float (x : Binary64)
  | str (t : Text)
  | bytes (bs : List UInt8)
  | date (d : Date)
  | list (items : List Value)
  | tuple (items : List Value)
  | map (entries : List (Value × Value))
  | object (id : Nat)
  | node (mark : MarkOf Value)
  deriving Repr

namespace Value

instance : Inhabited Value := ⟨.null⟩

/-! ## Equality -/

/-- A number without its kind: an integer, or a floating-point number that
equals none. -/
inductive Number where
  | integer (n : Int)
  | other (x : Binary64)
  deriving DecidableEq, Repr

/-- The number that a value stands for. -/
def number? : Value → Option Number
  | .bool b => some (.integer (if b then 1 else 0))
  | .int n => some (.integer n)
  | .float x =>
    match x.integer? with
    | some n => some (.integer n)
    | none => some (.other x)
  | _ => none

mutual
/-- Whether two values are the same key, or the same element of a list:
equal, or one and the same NaN or object. Maps are compared without regard
to order. -/
def same : Value → Value → Bool
  | .null, .null => true
  | .str a, .str b => a = b
  | .bytes a, .bytes b => a = b
  | .date a, .date b => a = b
  | .object a, .object b => a = b
  | .node ⟨p, as⟩, .node ⟨q, bs⟩ =>
    p = q && as.length = bs.length && annotationsWithin as bs
  | .list xs, .list ys => sameItems xs ys
  | .tuple xs, .tuple ys => sameItems xs ys
  | .map es, .map fs => es.length = fs.length && entriesWithin es fs
  | a, b => a.number?.isSome && a.number? = b.number?

/-- Whether two lists have the same elements in the same order. -/
def sameItems : List Value → List Value → Bool
  | [], [] => true
  | x :: xs, y :: ys => x.same y && sameItems xs ys
  | _, _ => false

/-- Whether each entry has an entry with the same key and value among
others. -/
def entriesWithin : List (Value × Value) → List (Value × Value) → Bool
  | [], _ => true
  | (k, v) :: es, fs =>
    (fs.any fun f => k.same f.1 && v.same f.2) && entriesWithin es fs

/-- Whether each annotation is found under its name among others. -/
def annotationsWithin :
    List (Text × AnnotationOf Value) → List (Text × AnnotationOf Value) → Bool
  | [], _ => true
  | (name, ⟨args, kwargs⟩) :: as, bs =>
    (bs.any fun b => name = b.1 && sameItems args b.2.args && sameNamed kwargs b.2.kwargs) &&
      annotationsWithin as bs

/-- Whether two lists have the same names and values in the same order. -/
def sameNamed : List (Text × Value) → List (Text × Value) → Bool
  | [], [] => true
  | (m, x) :: xs, (n, y) :: ys => m = n && x.same y && sameNamed xs ys
  | _, _ => false
end

/-- Whether two values are equal. -/
def equal (a b : Value) : Bool :=
  match a with
  | .float x => !x.isNaN && a.same b
  | _ => a.same b

/-! ## Kinds -/

/-- The kinds of values. -/
inductive Kind where
  | null | boolean | integer | float | string | bytes | date | array | tuple | map | object
  | node
  deriving DecidableEq, Repr

/-- The kind of a value. -/
def kind : Value → Kind
  | .null => .null
  | .bool _ => .boolean
  | .int _ => .integer
  | .float _ => .float
  | .str _ => .string
  | .bytes _ => .bytes
  | .date _ => .date
  | .list _ => .array
  | .tuple _ => .tuple
  | .map _ => .map
  | .object _ => .object
  | .node _ => .node

/-- The name of a kind where schemas speak of it. -/
def Kind.name : Kind → Text
  | .null => "null"
  | .boolean => "boolean"
  | .integer => "integer"
  | .float => "float"
  | .string => "string"
  | .bytes => "bytes"
  | .date => "date"
  | .array => "array"
  | .tuple => "tuple"
  | .map => "map"
  | .object => "Opaque"
  | .node => "Node"

/-- The name of a kind where arguments and keys are rejected. -/
def Kind.typeName : Kind → Text
  | .null => "NoneType"
  | .boolean => "bool"
  | .integer => "int"
  | .float => "float"
  | .string => "str"
  | .bytes => "bytes"
  | .date => "date"
  | .array => "list"
  | .tuple => "tuple"
  | .map => "dict"
  | .object => "Opaque"
  | .node => "Node"

/-- The kinds that a schema can ask for by name. -/
def Kind.isScalar : Kind → Bool
  | .boolean | .integer | .float | .string => true
  | _ => false

mutual
/-- The kind that keeps a value from being a key: lists, maps and nodes have
no fixed content, and neither has a tuple that holds one. -/
def unhashable? : Value → Option Kind
  | .list _ => some .array
  | .map _ => some .map
  | .node _ => some .node
  | .tuple xs => firstUnhashable xs
  | _ => none

/-- The first obstacle among the elements of a tuple. -/
def firstUnhashable : List Value → Option Kind
  | [] => none
  | x :: xs =>
    match x.unhashable? with
    | some k => some k
    | none => firstUnhashable xs
end

/-- Whether a value is more than nothing: not null, false, zero or empty. -/
def isSomething : Value → Bool
  | .null => false
  | .bool b => b
  | .int n => n ≠ 0
  | .float x => x.integer? ≠ some 0
  | .str t => !t.isEmpty
  | .bytes bs => !bs.isEmpty
  | .list vs | .tuple vs => !vs.isEmpty
  | .map es => !es.isEmpty
  | .date _ | .object _ | .node _ => true

/-- Whether a value can be a key. -/
def isHashable (v : Value) : Bool := v.unhashable?.isNone

end Value

end Stencil
