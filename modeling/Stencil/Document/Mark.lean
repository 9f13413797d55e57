import Stencil.Text.Basic

/-!
# Places and marks

Every node of a document remembers where it was written and which
annotations stand on it. What an annotation's arguments are is left open
here, because plain values, which they are, may themselves hold a marked
node.

## Main definitions

* `Position` — a place in a source file.
* `AnnotationOf`, `MarkOf` — an annotation, and what every node carries.
-/

namespace Stencil

/-- A place in a source file. An empty file name means that the place is
unknown. -/
structure Position where
  file : Text
  line : Option Int
  deriving DecidableEq, Repr, Inhabited

/-- The unknown place. -/
def Position.unknown : Position := ⟨[], none⟩

/-- A place in words: a question mark, a file, or a file and a line. -/
def Position.text (p : Position) : Text :=
  match p.file, p.line with
  | [], _ => "?"
  | file, none => file
  | file, some line => file ++ ":" ++ Text.ofInt line

/-- An annotation: its arguments, and its keyword arguments in the order in
which they were written. -/
structure AnnotationOf (α : Type) where
  args : List α
  kwargs : List (Text × α)
  deriving Repr

/-- What every node carries: its place and its annotations by name. -/
structure MarkOf (α : Type) where
  position : Position
  annotations : List (Text × AnnotationOf α)
  deriving Repr, Inhabited

end Stencil
