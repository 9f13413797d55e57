import Stencil.Value.Keyed

/-!
# Reading JSON

A JSON text writes one value. Besides what the format has, the words `NaN`,
`Infinity` and `-Infinity` are read as numbers. An object that writes a
name twice keeps the first place and the last value. Two escapes that are
halves of a surrogate pair make one character, and a half alone stays what
it is.

## Main definitions

* `JsonText.string?`, `JsonText.number?` — strings and numbers.
* `JsonText.value?` — any value off the front of a text.
* `Value.ofJson?` — the value that a text writes.
-/

namespace Stencil

namespace JsonText

/-- What is left of a text after a part that it begins with. -/
def after? (part t : Text) : Option Text :=
  if part.isPrefixOf t then some (t.drop part.length) else none

/-- Characters that may stand between the parts of a text. -/
def isSpace (c : CodePoint) : Bool := c = ' ' || c = '\t' || c = '\n' || c = '\r'

/-- A text without the space it begins with. -/
def skipSpace (t : Text) : Text := t.dropWhile isSpace

/-! ## Strings -/

/-- The number that four hexadecimal digits write. -/
def hexUnit? (t : Text) : Option Nat :=
  if (t.take 4).length = 4 then
    (t.take 4).foldlM (fun n (c : CodePoint) => (n * 16 + ·) <$> c.hexValue?) 0
  else none

/-- The second half of a surrogate pair, if it follows as an escape. -/
def lowHalf? (t : Text) : Option Nat := do
  let unit ← after? "\\u" t >>= hexUnit?
  if 0xDC00 ≤ unit && unit ≤ 0xDFFF then some unit else none

/-- A character given by number, after `\u`: four digits, or both halves of
a surrogate pair. -/
def numberedPoint? (t : Text) : Option (CodePoint × Text) := do
  let unit ← hexUnit? t
  let rest := t.drop 4
  if 0xD800 ≤ unit && unit ≤ 0xDBFF then
    match lowHalf? rest with
    | some low => return (⟨0x10000 + (unit - 0xD800) * 0x400 + (low - 0xDC00)⟩, rest.drop 6)
    | none => return (⟨unit⟩, rest)
  else return (⟨unit⟩, rest)

/-- The character that a backslash stands for together with the text after
it. -/
def escaped? : Text → Option (CodePoint × Text)
  | [] => none
  | c :: t =>
    if c = 'u' then numberedPoint? t
    else
      let point : Option CodePoint :=
        if c = '"' || c = '\\' || c = '/' then some c
        else if c = 'b' then some ⟨8⟩
        else if c = 'f' then some ⟨12⟩
        else if c = 'n' then some '\n'
        else if c = 'r' then some '\r'
        else if c = 't' then some '\t'
        else none
      point.map fun p => (p, t)

/-- The content of a string up to its end. The first argument bounds the
number of characters. -/
def content? : Nat → Text → Option (Text × Text)
  | 0, _ => none
  | _ + 1, [] => none
  | fuel + 1, c :: t =>
    if c = '"' then some ([], t)
    else do
      let (point, rest) ←
        if c = '\\' then escaped? t
        else if c.code < 0x20 then none
        else some (c, t)
      let (content, rest) ← content? fuel rest
      return (point :: content, rest)

/-- A string, after its opening mark. -/
def string? (t : Text) : Option (Text × Text) := content? (t.length + 1) t

/-! ## Numbers -/

/-- The decimal digits that a text begins with, at least one. -/
def digits? (t : Text) : Option (Text × Text) :=
  let digits := t.takeWhile CodePoint.isDigit
  if digits.isEmpty then none else some (digits, t.drop digits.length)

/-- Whole digits: a zero alone, or digits that do not begin with one. -/
def wholeDigits? (t : Text) : Option (Text × Text) :=
  match after? "0" t with
  | some rest => some ("0", rest)
  | none => digits? t

/-- The digits after a decimal point, if there is such a part. -/
def fraction (t : Text) : Option Text × Text :=
  match after? "." t >>= digits? with
  | some (digits, rest) => (some digits, rest)
  | none => (none, t)

/-- An exponent, if there is one. -/
def exponent (t : Text) : Option Int × Text :=
  let read : Option (Int × Text) := do
    let t ← (after? "e" t).or (after? "E" t)
    let negative := Text.startsWith "-" t
    let (digits, rest) ← digits? (((after? "-" t).or (after? "+" t)).getD t)
    let n : Int := Text.natValue digits
    return (if negative then -n else n, rest)
  match read with
  | some (n, rest) => (some n, rest)
  | none => (none, t)

/-- The digits that an integer can have. -/
def mostDigits : Nat := 4300

/-- A number, which is an integer if it has neither a fraction nor an
exponent. A NaN is told from others by its place in the text. -/
def number? (t : Text) : Option (Value × Text) :=
  let negative := Text.startsWith "-" t
  let body := (after? "-" t).getD t
  match after? "Infinity" body, after? "NaN" t with
  | some rest, _ => some (.float (.infinite negative), rest)
  | none, some rest => some (.float (.nan rest.length), rest)
  | none, none => do
    let (whole, rest) ← wholeDigits? body
    let (fraction, rest) := fraction rest
    let (exponent, rest) := exponent rest
    if fraction.isNone && exponent.isNone then
      let n : Int := Text.natValue whole
      if mostDigits < whole.length then none
      else return (.int (if negative then -n else n), rest)
    else return (.float (.ofNumeral negative whole (fraction.getD []) (exponent.getD 0)), rest)

/-! ## Values -/

/-- A word, a string or a number. -/
def scalar? (t : Text) : Option (Value × Text) :=
  match after? "null" t, after? "true" t, after? "false" t, after? "\"" t with
  | some rest, _, _, _ => some (.null, rest)
  | _, some rest, _, _ => some (.bool true, rest)
  | _, _, some rest, _ => some (.bool false, rest)
  | _, _, _, some rest => (string? rest).map fun (s, rest) => (.str s, rest)
  | _, _, _, _ => number? t

mutual
/-- A value off the front of a text. The first argument bounds the depth of
the reading. -/
def value? : Nat → Text → Option (Value × Text)
  | 0, _ => none
  | fuel + 1, t =>
    match after? "[" t, after? "\x7b" t with
    | some rest, _ =>
      match after? "]" (skipSpace rest) with
      | some rest => some (.list [], rest)
      | none => (items? fuel (skipSpace rest)).map fun (vs, rest) => (.list vs, rest)
    | _, some rest =>
      match after? "\x7d" (skipSpace rest) with
      | some rest => some (.map [], rest)
      | none =>
        (members? fuel (skipSpace rest)).map fun (ms, rest) => (.map (Keyed.ofList ms), rest)
    | _, _ => scalar? t

/-- The items of an array up to its end; there is at least one. -/
def items? : Nat → Text → Option (List Value × Text)
  | 0, _ => none
  | fuel + 1, t => do
    let (v, rest) ← value? fuel t
    let rest := skipSpace rest
    match after? "]" rest with
    | some rest => return ([v], rest)
    | none =>
      let (vs, rest) ← items? fuel (skipSpace (← after? "," rest))
      return (v :: vs, rest)

/-- The members of an object up to its end; there is at least one. -/
def members? : Nat → Text → Option (List (Value × Value) × Text)
  | 0, _ => none
  | fuel + 1, t => do
    let (name, rest) ← after? "\"" t >>= string?
    let (v, rest) ← value? fuel (skipSpace (← after? ":" (skipSpace rest)))
    let rest := skipSpace rest
    match after? "\x7d" rest with
    | some rest => return ([(.str name, v)], rest)
    | none =>
      let (ms, rest) ← members? fuel (skipSpace (← after? "," rest))
      return ((.str name, v) :: ms, rest)
end

end JsonText

/-- The value that a JSON text writes, if it is one. -/
def Value.ofJson? (t : Text) : Option Value := do
  let (v, rest) ← JsonText.value? (2 * t.length + 2) (JsonText.skipSpace t)
  if (JsonText.skipSpace rest).isEmpty then some v else none

end Stencil
