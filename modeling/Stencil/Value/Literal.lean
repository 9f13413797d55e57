import Stencil.Value.Basic
import Stencil.Number.Shortest
import Stencil.Text.Quoted

/-!
# Values in messages

A message shows a value either as a literal, from which its kind can be
told, or as plain text, where a text stands for itself and a date has its
ISO form. Elements of lists, tuples and maps are always literals, and so is
what stands in the mark of a node.

## Main definitions

* `Value.literal` — the literal form.
* `Value.display` — the plain form.
-/

namespace Stencil.Value

/-- A text between two others. -/
def enclosed (opening closing content : Text) : Text := opening ++ content ++ closing

/-- The literal form of a tuple with given elements; a single one is followed
by a comma. -/
def tupleOf : List Text → Text
  | [x] => enclosed "(" ",)" x
  | ls => enclosed "(" ")" (Text.joinWith ", " ls)

/-- The literal form of a map with given entries. -/
def mapOf (entries : List Text) : Text :=
  enclosed "\x7b" "\x7d" (Text.joinWith ", " entries)

/-- The literal form of a place. -/
def placeLiteral (p : Position) : Text :=
  let line :=
    match p.line with
    | some n => Text.ofInt n
    | none => "None"
  enclosed "Position(" ")" ("file=" ++ p.file.quoted ++ ", line=" ++ line)

mutual
/-- The literal form of a value. -/
def literal : Value → Text
  | .null => "None"
  | .bool b => if b then "True" else "False"
  | .int n => Text.ofInt n
  | .float x => x.text
  | .str t => t.quoted
  | .bytes bs => Text.quotedBytes bs
  | .date d =>
    enclosed "datetime.date(" ")" <|
      Text.joinWith ", " [Text.ofNat d.year, Text.ofNat d.month, Text.ofNat d.day]
  | .list xs => enclosed "[" "]" (Text.joinWith ", " (literals xs))
  | .tuple xs => tupleOf (literals xs)
  | .map es => mapOf (entryLiterals es)
  | .object _ => "<Opaque>"
  | .node ⟨p, as⟩ =>
    enclosed "Node(" ")" <|
      "position=" ++ placeLiteral p ++ ", annotations=" ++ mapOf (annotationLiterals as)

/-- The literal forms of some values. -/
def literals : List Value → List Text
  | [] => []
  | x :: xs => x.literal :: literals xs

/-- The entries of a map, key and value separated by a colon. -/
def entryLiterals : List (Value × Value) → List Text
  | [] => []
  | (k, v) :: es => (k.literal ++ ": " ++ v.literal) :: entryLiterals es

/-- The annotations of a node, name and content separated by a colon. -/
def annotationLiterals : List (Text × AnnotationOf Value) → List Text
  | [] => []
  | (name, ⟨args, kwargs⟩) :: as =>
    (name.quoted ++ ": " ++ enclosed "NodeAnnotation(" ")"
      ("args=" ++ tupleOf (literals args) ++ ", kwargs=" ++ tupleOf (namedLiterals kwargs))) ::
        annotationLiterals as

/-- The literal forms of named values, each a tuple of name and value. -/
def namedLiterals : List (Text × Value) → List Text
  | [] => []
  | (name, v) :: es => tupleOf [name.quoted, v.literal] :: namedLiterals es
end

/-- The plain form of a value. -/
def display : Value → Text
  | .str t => t
  | .date d => d.text
  | v => v.literal

end Stencil.Value
