import Stencil.Toml.Basic

/-!
# Scalars of a TOML document

Strings, numbers, dates and truth values, each read off the front of a
text. A reader answers what it read and the text that is left, or nothing
if the text does not begin with its kind of scalar. A decimal integer can
be read and still have too many digits to be a value.

Dates with a time of day, and times of day alone, are checked and then
kept as objects, since no plain value stands for them.

## Main definitions

* `Toml.Reader` — what reads something off the front of a text.
* `Toml.lineString?`, `Toml.blockString?`, `Toml.stringWith?` — strings.
* `Toml.number?`, `Toml.moment?` — numbers, and dates and times.
* `Toml.scalar` — any scalar.
-/

namespace Stencil.Toml

/-- Reads something off the front of a text. -/
abbrev Reader (α : Type) := Text → Option (α × Text)

/-- What is left of a text after a part that it begins with. -/
def strip? (part t : Text) : Option Text :=
  if part.isPrefixOf t then some (t.drop part.length) else none

/-! ## Characters -/

/-- Space and tab, which may stand between the parts of a line. -/
def isBlank (c : CodePoint) : Bool := c = ' ' || c = '\t'

/-- Blanks and the end of a line. -/
def isGap (c : CodePoint) : Bool := isBlank c || c = '\n'

/-- Control characters other than the tab, which may stand nowhere in a
line. -/
def isControl (c : CodePoint) : Bool := (c.code < 0x20 && c ≠ '\t') || c.code = 0x7F

/-- A text without the blanks it begins with. -/
def skipBlanks (t : Text) : Text := t.dropWhile isBlank

/-! ## Strings -/

/-- The number that some hexadecimal digits write. -/
def hexNumber? (digits : Text) : Option Nat :=
  digits.foldlM (fun n (c : CodePoint) => (n * 16 + ·) <$> c.hexValue?) 0

/-- A character given by a fixed number of hexadecimal digits. -/
def numberedPoint? (width : Nat) : Reader Text := fun t => do
  let digits := t.take width
  let c : CodePoint := ⟨← hexNumber? digits⟩
  if digits.length = width && !c.isSurrogate && c.code ≤ 0x10FFFF then
    some ([c], t.drop width)
  else none

/-- What a backslash stands for together with the text after it. In a
string of several lines it may also stand before the end of a line, and
then takes all blank space up to the next character away. -/
def escaped? (multiline : Bool) : Reader Text
  | [] => none
  | c :: t =>
    if c = 'u' then numberedPoint? 4 t
    else if c = 'U' then numberedPoint? 8 t
    else if multiline && isGap c then
      match skipBlanks (c :: t) with
      | d :: t => if d = '\n' then some ([], t.dropWhile isGap) else none
      | [] => some ([], [])
    else
      let point : Option CodePoint :=
        if c = 'b' then some ⟨8⟩
        else if c = 't' then some '\t'
        else if c = 'n' then some '\n'
        else if c = 'f' then some ⟨12⟩
        else if c = 'r' then some '\r'
        else if c = '"' || c = '\\' then some c
        else none
      point.map fun p => ([p], t)

/-- The three marks around a string of several lines. -/
def tripled (mark : CodePoint) : Text := [mark, mark, mark]

/-- What ends a string: one mark, or three of them. -/
def ending (multiline : Bool) (mark : CodePoint) : Text :=
  if multiline then tripled mark else [mark]

/-- The content of a string up to its end. A string in double quotes has
escapes. The first argument bounds the number of steps. -/
def content? (multiline : Bool) (mark : CodePoint) : Nat → Reader Text
  | 0, _ => none
  | fuel + 1, t =>
    match strip? (ending multiline mark) t with
    | some rest => some ([], rest)
    | none =>
      match t with
      | [] => none
      | c :: t => do
        let (piece, rest) ←
          if c = '\\' && mark = '"' then escaped? multiline t
          else if isControl c && !(multiline && c = '\n') then none
          else some ([c], t)
        let (content, rest) ← content? multiline mark fuel rest
        return (piece ++ content, rest)

/-- A string on one line, after its opening mark. -/
def lineString? (mark : CodePoint) : Reader Text := fun t => content? false mark (t.length + 1) t

/-- A string of several lines, after its opening marks: the end of a line
that it begins with does not count, and up to two marks more than three at
its end belong to it. -/
def blockString? (mark : CodePoint) : Reader Text := fun t => do
  let t := (strip? "\n" t).getD t
  let (content, rest) ← content? true mark (t.length + 1) t
  let extra := (rest.take 2).takeWhile (· = mark)
  return (content ++ extra, rest.drop extra.length)

/-- A string that begins with a mark, on one line or on several. -/
def stringWith? (mark : CodePoint) : Reader Text := fun t =>
  match strip? (tripled mark) t with
  | some rest => blockString? mark rest
  | none => strip? [mark] t >>= lineString? mark

/-! ## Numbers -/

/-- The digits of a run in which single underscores may stand between
digits. -/
def digitRun (isDigit : CodePoint → Bool) : Text → Text × Text
  | [] => ([], [])
  | c :: t =>
    if isDigit c then
      let (digits, rest) := digitRun isDigit t
      (c :: digits, rest)
    else if c = '_' && t.head?.any isDigit then
      digitRun isDigit t
    else ([], c :: t)

/-- A run that begins with a digit. -/
def digits? (isDigit : CodePoint → Bool) : Reader Text := fun t =>
  if t.head?.any isDigit then some (digitRun isDigit t) else none

/-- The digits of a base. -/
def isDigitOf (base : Nat) (c : CodePoint) : Bool := c.hexValue?.any (· < base)

/-- An integer in a base other than ten, which a prefix announces. -/
def basedInteger? (announced : Text) (base : Nat) : Reader Value := fun t => do
  let (digits, rest) ← strip? announced t >>= digits? (isDigitOf base)
  let n := digits.foldl (fun n c => n * base + c.hexValue?.getD 0) 0
  return (.int n, rest)

/-- A sign, which may be absent. -/
def sign (t : Text) : Bool × Text :=
  match strip? "-" t with
  | some rest => (true, rest)
  | none => (false, (strip? "+" t).getD t)

/-- The whole digits of a decimal number: a zero alone, or a run that does
not begin with one. -/
def wholeDigits? : Reader Text := fun t =>
  match strip? "0" t with
  | some rest => some ("0", rest)
  | none => digits? CodePoint.isDigit t

/-- The digits after a decimal point, if there is such a part. -/
def fraction (t : Text) : Option Text × Text :=
  match strip? "." t >>= digits? CodePoint.isDigit with
  | some (digits, rest) => (some digits, rest)
  | none => (none, t)

/-- An exponent, if there is one. -/
def exponent (t : Text) : Option Int × Text :=
  let read : Option (Int × Text) := do
    let (negative, rest) := sign (← (strip? "e" t).or (strip? "E" t))
    let (digits, rest) ← digits? CodePoint.isDigit rest
    let n : Int := Text.natValue digits
    return (if negative then -n else n, rest)
  match read with
  | some (n, rest) => (some n, rest)
  | none => (none, t)

/-- The integer that decimal digits write, unless there are too many. -/
def integerOf (negative : Bool) (digits : Text) : Outcome Value :=
  if mostDigits < digits.length then .error (.excessive digits.length)
  else
    let n : Int := Text.natValue digits
    .ok (.int (if negative then -n else n))

/-- A decimal number, which is an integer if it has neither a fraction nor
an exponent. -/
def decimal? : Reader (Outcome Value) := fun t => do
  let (negative, rest) := sign t
  let (whole, rest) ← wholeDigits? rest
  let (fraction, rest) := fraction rest
  let (exponent, rest) := exponent rest
  let value : Outcome Value :=
    if fraction.isNone && exponent.isNone then integerOf negative whole
    else .ok (.float (.ofNumeral negative whole (fraction.getD []) (exponent.getD 0)))
  return (value, rest)

/-- Infinity, or something that is not a number, which is told from others
by its place in the text. -/
def special? : Reader Value := fun t =>
  let (negative, rest) := sign t
  match strip? "inf" rest with
  | some rest => some (.float (.infinite negative), rest)
  | none => (strip? "nan" rest).map fun rest => (.float (.nan rest.length), rest)

/-- A number. -/
def number? : Reader (Outcome Value) := fun t =>
  let plain (r : Option (Value × Text)) : Option (Outcome Value × Text) :=
    r.map fun (v, rest) => (.ok v, rest)
  plain (basedInteger? "0x" 16 t <|> basedInteger? "0b" 2 t <|> basedInteger? "0o" 8 t) <|>
    decimal? t <|> plain (special? t)

/-! ## Dates and times -/

/-- A number of fixed width within bounds. -/
def fixed? (width low high : Nat) : Reader Nat := fun t =>
  let digits := t.take width
  let n := Text.natValue digits
  if digits.length = width && digits.all CodePoint.isDigit && low ≤ n && n ≤ high then
    some (n, t.drop width)
  else none

/-- A time of day: hours, minutes and seconds, and perhaps a fraction of a
second. Only what is left is answered. -/
def clock? (t : Text) : Option Text := do
  let (_, rest) ← fixed? 2 0 23 t
  let (_, rest) ← strip? ":" rest >>= fixed? 2 0 59
  let (_, rest) ← strip? ":" rest >>= fixed? 2 0 59
  let afterPoint := (strip? "." rest).getD []
  let digits := afterPoint.takeWhile CodePoint.isDigit
  return if digits.isEmpty then rest else afterPoint.drop digits.length

/-- What is left after a distance from universal time, which may be
absent. -/
def skipOffset (t : Text) : Text :=
  let distance (t : Text) : Option Text := do
    let (_, rest) ← fixed? 2 0 23 t
    let (_, rest) ← strip? ":" rest >>= fixed? 2 0 59
    return rest
  ((strip? "Z" t).or <| (strip? "z" t).or <| (strip? "+" t >>= distance).or <|
    strip? "-" t >>= distance).getD t

/-- The days of a month. -/
def daysIn (year month : Nat) : Nat :=
  if month = 2 then
    if year % 4 = 0 && (year % 100 ≠ 0 || year % 400 = 0) then 29 else 28
  else if month = 4 || month = 6 || month = 9 || month = 11 then 30
  else 31

/-- What is written like a date: four, two and two digits. -/
def dateForm? : Reader Date := fun t => do
  let (year, rest) ← fixed? 4 0 9999 t
  let (month, rest) ← strip? "-" rest >>= fixed? 2 1 12
  let (day, rest) ← strip? "-" rest >>= fixed? 2 1 31
  return (⟨year, month, day⟩, rest)

/-- Whether there is such a day. -/
def isDay (d : Date) : Bool := 0 < d.year && d.day ≤ daysIn d.year d.month

/-- The time of day that may follow a date. -/
def timeAfterDate? (t : Text) : Option Text :=
  match t with
  | c :: t => if c = 'T' || c = 't' || c = ' ' then skipOffset <$> clock? t else none
  | [] => none

/-- A date, a date with a time of day, or a time of day, if the text begins
like one; nothing inside if there is no such day. -/
def moment? (t : Text) : Option (Option (Value × Text)) :=
  match dateForm? t with
  | some (d, rest) =>
    some <|
      if !isDay d then none
      else
        match timeAfterDate? rest with
        | some after => some (.object after.length, after)
        | none => some (.date d, rest)
  | none => (clock? t).map fun rest => some (.object rest.length, rest)

/-! ## Scalars -/

/-- A truth value. -/
def truth? : Reader Value := fun t =>
  match strip? "true" t with
  | some rest => some (.bool true, rest)
  | none => (strip? "false" t).map fun rest => (.bool false, rest)

/-- Any scalar, off the front of a text. -/
def scalar (t : Text) : Outcome (Value × Text) :=
  match t.head? with
  | none => .error .malformed
  | some c =>
    if c = '"' || c = '\'' then
      required ((stringWith? c t).map fun (s, rest) => (.str s, rest))
    else
      match truth? t with
      | some r => .ok r
      | none =>
        match moment? t with
        | some r => required r
        | none => do
          let (v, rest) ← required (number? t)
          return (← v, rest)

end Stencil.Toml
