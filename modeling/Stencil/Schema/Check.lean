import Stencil.Schema.Type

/-!
# Checking values against types

A value is checked from the top down. Each position where it leaves its
type is reported once, with the path of keys and indexes that leads there,
and nothing is reported below it. The path grows as the check descends: a
key is set off by a dot unless it is the first step, and an index stands in
brackets.

## Main definitions

* `Violation`, `Violation.text` — one position where a value leaves its
  type.
* `SchemaType.violations` — all of them, in the order of the value.
* `SchemaType.check` — their texts, if every type they come from has a rule.
-/

namespace Stencil

/-- A position where a value leaves its type. -/
inductive Violation where
  /-- The value is of the wrong kind for its type. -/
  | mismatch (path expected : Text) (found : Value.Kind) (declared : Position)
  /-- The key at the end of the path is not declared. -/
  | undeclared (path : Text) (declared : Position)
  /-- The type has no rule. -/
  | unruled
  deriving Repr

namespace Violation

/-- A position in words; the top of a value has an empty path. -/
def place (path : Text) : Text := if path.isEmpty then "(document)" else path

/-- A violation in words. -/
def text : Violation → Text
  | .mismatch path expected found declared =>
    place path ++ ": expected " ++ expected ++ ", found " ++ found.name ++ " (" ++
      declared.text ++ ")"
  | .undeclared path declared =>
    path ++ ": key is not declared in schema (" ++ declared.text ++ ")"
  | .unruled => ""

/-- Whether a violation comes from a type without a rule. -/
def isUnruled : Violation → Bool
  | .unruled => true
  | _ => false

end Violation

namespace SchemaType

/-- The path of the value under a key. -/
def keyPath (path : Text) (key : Value) : Text :=
  if path.isEmpty then key.display else path ++ "." ++ key.display

/-- The path of the item at an index. -/
def indexPath (path : Text) (index : Nat) : Text := path ++ "[" ++ Text.ofNat index ++ "]"

/-- Whether a scalar type accepts a kind: its own, and integers where
floating-point numbers are asked for. -/
def acceptsKind (wanted : Text) (found : Value.Kind) : Bool :=
  found.name = wanted || (wanted = ("float" : Text) && found = .integer)

/-- The violation of a value that is of the wrong kind. -/
def mismatch (t : SchemaType) (path : Text) (v : Value) : List Violation :=
  [.mismatch path t.name v.kind t.position]

mutual
/-- The positions where a value at a path leaves its type. -/
def violations (path : Text) (v : Value) : SchemaType → List Violation
  | .any _ _ => []
  | .nullable _ wrapped =>
    match v with
    | .null => []
    | _ => wrapped.violations path v
  | .scalar p kind d =>
    if acceptsKind kind v.kind then [] else mismatch (.scalar p kind d) path v
  | .map p items =>
    match v with
    | .map entries =>
      entries.flatMap fun e =>
        let itemPath := keyPath path e.1
        (violationsUnder itemPath e.1 e.2 items).getD [.undeclared itemPath p]
    | _ => mismatch (.map p items) path v
  | .array p item =>
    match v with
    | .list xs => xs.zipIdx.flatMap fun x => item.violations (indexPath path x.2) x.1
    | _ => mismatch (.array p item) path v
  | .unruled _ => [.unruled]

/-- The violations of the value under a key, if the key is declared. -/
def violationsUnder (path : Text) (key v : Value) :
    List (Value × SchemaType) → Option (List Violation)
  | [] => none
  | (k, t) :: items =>
    if k.same key then some (t.violations path v) else violationsUnder path key v items
end

/-- The violations of a value in words. -/
def check (t : SchemaType) (path : Text) (v : Value) : Except Failure (List Text) :=
  let vs := t.violations path v
  if vs.any Violation.isUnruled then Fault.throw .unruled else .ok (vs.map Violation.text)

end SchemaType

end Stencil
