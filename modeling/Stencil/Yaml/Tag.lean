import Stencil.Text.Basic

/-!
# What plain text means in YAML

A scalar written without quotation marks is read as the kind of value that
its text looks like: a number, a truth value, null, a date, or one of two
reserved marks; everything else is text. A writer has to know the rules,
since a text that looks like something else must be quoted.

## Main definitions

* `Yaml.Tag` — the kinds of scalars.
* `Yaml.Tag.ofPlain` — the kind that a plain scalar is read as.
-/

namespace Stencil.Yaml

/-- The kinds of scalars. A `merge` or `value` mark is never written as a
value of its own. -/
inductive Tag where
  | null | bool | int | float | str | timestamp | binary | merge | value
  deriving DecidableEq, Repr

/-- A run of digits that underscores may divide. -/
def isGrouped (isDigit : CodePoint → Bool) (t : Text) : Bool :=
  !t.isEmpty && t.all fun (c : CodePoint) => c = '_' || isDigit c

/-- A text without its sign. -/
def unsigned : Text → Text
  | [] => []
  | c :: t => if c = '+' || c = '-' then t else c :: t

/-- Integers: decimal, or binary, octal or hexadecimal after a mark. -/
def isInteger (t : Text) : Bool :=
  let body := unsigned t
  let marked (letter : CodePoint) (isDigit : CodePoint → Bool) : Bool :=
    match body with
    | zero :: l :: digits => zero = '0' && l = letter && isGrouped isDigit digits
    | _ => false
  isGrouped CodePoint.isDigit body ||
    marked 'b' (fun c => c.isWithin 0x30 0x31) ||
    marked 'o' (fun c => c.isWithin 0x30 0x37) ||
    marked 'x' (fun c => c.hexValue?.isSome)

/-- A nonempty run of digits. -/
def isDigits (t : Text) : Bool := !t.isEmpty && t.all CodePoint.isDigit

/-- The exponent of a numeral, from its letter on. -/
def isExponent (needsSign : Bool) : Text → Bool
  | [] => false
  | letter :: t =>
    (letter = 'e' || letter = 'E') &&
      if needsSign then unsigned t ≠ t && isDigits (unsigned t) else isDigits (unsigned t)

/-- Numerals with a point, an exponent or both, and the names of the
infinities and of NaN. -/
def isFloat (t : Text) : Bool :=
  let body := unsigned t
  let isGroup (c : CodePoint) : Bool := c = '_' || c.isDigit
  let whole := body.takeWhile isGroup
  let rest := body.drop whole.length
  let afterPoint := rest.drop 1
  let fraction := afterPoint.takeWhile isGroup
  let exponent := afterPoint.drop fraction.length
  let startsWithDigit := (whole.head?.map CodePoint.isDigit).getD false
  let hasPoint := rest.head? = some ('.' : CodePoint)
  (startsWithDigit && hasPoint && (exponent.isEmpty || isExponent false exponent)) ||
    (startsWithDigit && isExponent false rest) ||
    (whole.isEmpty && hasPoint && !fraction.isEmpty &&
      (exponent.isEmpty || isExponent true exponent)) ||
    [(".inf" : Text), ".Inf", ".INF"].contains body ||
    [(".nan" : Text), ".NaN", ".NAN"].contains t

/-- What follows a run of digits of bounded length at the start. -/
def afterDigits (least most : Nat) (t : Text) : Option Text :=
  let n := ((t.take most).takeWhile CodePoint.isDigit).length
  if least ≤ n then some (t.drop n) else none

/-- What follows a code point of a set at the start. -/
def afterOneOf (set : Text) : Text → Option Text
  | [] => none
  | c :: t => if set.contains c then some t else none

/-- What follows a date. -/
def afterDate (least : Nat) (t : Text) : Option Text :=
  afterDigits 4 4 t >>= afterOneOf "-" >>= afterDigits least 2 >>= afterOneOf "-" >>=
    afterDigits least 2

/-- What follows a time of day with an optional fraction of a second. -/
def afterTime (t : Text) : Option Text := do
  let t ← afterDigits 1 2 t >>= afterOneOf ":" >>= afterDigits 2 2 >>= afterOneOf ":" >>=
    afterDigits 2 2
  match afterOneOf "." t with
  | some fraction => return fraction.dropWhile CodePoint.isDigit
  | none => return t

/-- A text without blanks at its start. -/
def afterBlanks (t : Text) : Text := t.dropWhile fun (c : CodePoint) => c = ' ' || c = '\t'

/-- The offset from universal time, or nothing at all. -/
def isZone (t : Text) : Bool :=
  t.isEmpty ||
    match afterBlanks t with
    | [] => false
    | c :: rest =>
      if c = 'Z' then rest.isEmpty
      else if c = '+' || c = '-' then
        match afterDigits 1 2 rest with
        | some [] => true
        | some minutes => (afterOneOf ":" minutes >>= afterDigits 2 2) = some []
        | none => false
      else false

/-- What separates a date from a time: a letter or blanks. -/
def afterSeparator (t : Text) : Option Text :=
  match afterOneOf "Tt" t with
  | some rest => some rest
  | none => if afterBlanks t = t then none else some (afterBlanks t)

/-- Dates, and dates with a time of day. -/
def isTimestamp (t : Text) : Bool :=
  afterDate 2 t = some [] ||
    match afterDate 1 t >>= afterSeparator >>= afterTime with
    | some zone => isZone zone
    | none => false

/-- The names of null. -/
def nullNames : List Text := ["~", "null", "Null", "NULL", ""]

/-- The names of the truth values. -/
def boolNames : List Text := ["true", "True", "TRUE", "false", "False", "FALSE"]

/-- The kind that a plain scalar is read as. An underscore cannot start a
number, though it may divide its digits. -/
def Tag.ofPlain (t : Text) : Tag :=
  let first := t.head?.getD ' '
  let startsNumber := first.isDigit || first = '+' || first = '-'
  if nullNames.contains t then .null
  else if boolNames.contains t then .bool
  else if (startsNumber || first = '.') && isFloat t then .float
  else if startsNumber && isInteger t then .int
  else if t = ("<<" : Text) then .merge
  else if t = ("=" : Text) then .value
  else if isTimestamp t then .timestamp
  else .str

end Stencil.Yaml
