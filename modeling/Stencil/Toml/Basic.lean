import Stencil.Value.Keyed

/-!
# Lines of a TOML document

A TOML document is a sequence of lines. A line gives a value to a dotted
key, opens a table, or opens a new element of an array of tables; blank
lines and comments say nothing. Which lines may follow each other, and what
they build, is the matter of `Stencil.Toml.Tables`.

## Main definitions

* `Toml.Key` — a dotted key.
* `Toml.Written` — a value, and whether it is complete as it is written.
* `Toml.Line` — what a line says.
* `Toml.Flaw` — what keeps a text from being read.
-/

namespace Stencil.Toml

/-- A dotted key: its parts from the outside in. -/
abbrev Key := List Text

/-- A value, and whether it is written as an array or an inline table, to
which no other line may add. -/
structure Written where
  value : Value
  isComposite : Bool
  deriving Repr, Inhabited

/-- What a line says. -/
inductive Line where
  /-- A value for a key below the table that is open. -/
  | assign (key : Key) (value : Written)
  /-- Opens a table. -/
  | table (key : Key)
  /-- Opens a new element of an array of tables. -/
  | element (key : Key)
  deriving Repr, Inhabited

/-- The decimal digits that an integer can have. -/
def mostDigits : Nat := 4300

/-- What keeps a text from being read. -/
inductive Flaw where
  /-- The text is not a TOML document. -/
  | malformed
  /-- A decimal integer has this many digits, which are too many. -/
  | excessive (digits : Nat)
  deriving DecidableEq, Repr

/-- What is read, or a flaw. -/
abbrev Outcome (α : Type) := Except Flaw α

/-- Something that a TOML document has to have. -/
def required {α : Type} : Option α → Outcome α
  | some a => .ok a
  | none => .error .malformed

end Stencil.Toml
