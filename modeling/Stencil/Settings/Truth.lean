import Stencil.Settings.Breach
import Stencil.Text.Utf8

/-!
# Switches in configuration files

A switch is a truth value, or something else that plainly stands for one: a
word such as `yes` or `off` in capitals or small letters, or one of the
numbers zero and one.

## Main definitions

* `truthOfWord?`, `truthOfNumber?` — the readings of words and numbers.
* `Value.toTruth` — the truth value that a value stands for.
-/

namespace Stencil

/-- The words for a switch that is off. -/
def offWords : List Text := ["0", "f", "n", "no", "off", "false"]

/-- The words for a switch that is on. -/
def onWords : List Text := ["1", "t", "y", "yes", "on", "true"]

/-- The truth value that a word stands for, in capitals or small letters. -/
def truthOfWord? (word : Text) : Option Bool :=
  if offWords.contains word.toLower then some false
  else if onWords.contains word.toLower then some true
  else none

/-- The truth value that a number stands for. -/
def truthOfNumber? (n : Int) : Option Bool :=
  if n = 0 then some false else if n = 1 then some true else none

namespace Value

/-- A reading of a value of a fitting kind. -/
def truthOr (r : Option Bool) : Checked Bool :=
  match r with
  | some b => .ok b
  | none => .broken .truthText

/-- The integers that a machine word holds; numbers outside are not taken
for switches at all. -/
def wordBound : Int := Int.pow 2 63

/-- The truth value that a value stands for. -/
def toTruth : Value → Checked Bool
  | .bool b => .ok b
  | .str t => if (Utf8.obstacle? t).isSome then .broken .unicode else truthOr (truthOfWord? t)
  | .bytes bs => truthOr (truthOfWord? (bs.map fun b => ⟨b.toNat⟩))
  | .int n =>
    if -wordBound ≤ n && n < wordBound then truthOr (truthOfNumber? n) else .broken .truthKind
  | .float x =>
    match x.integer? with
    | some n =>
      if -wordBound < n && n < wordBound then truthOr (truthOfNumber? n) else .broken .truthKind
    | none => .broken .truthKind
  | _ => .broken .truthKind

end Value

end Stencil
