import Stencil.Value.Keyed

/-!
# Checking configuration values

A configuration is checked as a whole: every part that breaks a rule is
reported with the names that lead to it, so that a reader can mend all of
them at once. A computation that checks is therefore either a result or a
list of breaches, and two checks side by side report what both find.

## Main definitions

* `Breach` — a rule with the names that lead to the offending part.
* `Checked` — a result, or all breaches.
* `Checked.apply`, `Checked.within` — checks side by side, and a check of a
  part.
* `Checked.table`, `Checked.field` — tables and their fields.
-/

namespace Stencil

/-- The rules that a configuration can break. -/
inductive Rule where
  /-- A text or number has to stand for a truth value. -/
  | truthText
  /-- A value has to be of a kind that can stand for a truth value. -/
  | truthKind
  /-- A text has to be free of surrogates. -/
  | unicode
  /-- A value has to be a table. -/
  | table
  /-- A name has to be known. -/
  | known
  /-- What is settled stays as it is. -/
  | settled
  deriving DecidableEq, Repr

/-- The stable name of a rule. -/
def Rule.name : Rule → Text
  | .truthText => "bool_parsing"
  | .truthKind => "bool_type"
  | .unicode => "string_unicode"
  | .table => "model_type"
  | .known => "extra_forbidden"
  | .settled => "frozen_instance"

/-- A broken rule, with the names that lead to the offending part. -/
structure Breach where
  rule : Rule
  path : List Text
  deriving DecidableEq, Repr

/-- A breach by name and place. -/
def Breach.toValue (v : Breach) : Value :=
  .map [(.str "type", .str v.rule.name), (.str "loc", .tuple (v.path.map .str))]

/-- Breaches in the order of their rules' names, then of their places. -/
def Breach.sorted (breaches : List Breach) : List Breach :=
  let key (b : Breach) : List Text := b.rule.name :: b.path
  breaches.mergeSort fun a b => !decide (key b < key a)

/-- A result, or every breach that stands in its way. -/
abbrev Checked (α : Type) := Except (List Breach) α

namespace Checked

variable {α β : Type}

/-- The value itself breaks a rule. -/
def broken (rule : Rule) : Checked α := .error [⟨rule, []⟩]

/-- A check of a part that has a name. -/
def within (name : Text) (r : Checked α) : Checked α :=
  match r with
  | .ok a => .ok a
  | .error vs => .error (vs.map fun v => { v with path := name :: v.path })

/-- Two checks side by side, of which the first gives a function. -/
def apply (f : Checked (α → β)) (a : Checked α) : Checked β :=
  match f, a with
  | .ok f, .ok a => .ok (f a)
  | .error vs, .error ws => .error (vs ++ ws)
  | .error vs, .ok _ => .error vs
  | .ok _, .error ws => .error ws

/-- The entries of a value that has to be a table. -/
def table : Value → Checked (List (Value × Value))
  | .map es => .ok es
  | _ => broken .table

/-- A field of a table, or its default where the table does not have it. -/
def field (read : Value → Checked α) (default : α) (name : Text)
    (es : List (Value × Value)) : Checked α :=
  match Keyed.find? (.str name) es with
  | none => .ok default
  | some v => (read v).within name

end Checked

end Stencil
