/-!
# Text as a sequence of code points

Text arrives from parsers and engines that may hand over half of a
surrogate pair, which `Char` and `String` cannot hold. A `Text` is
therefore a list of code points, and every function of the library that
reads or writes text is a function on such a list. Text that comes from
the library itself is written as a string literal and coerced.

Lists make the usual questions structural: concatenation is `++`, the
order of two texts is the lexicographic order of their code points, and a
scan is a recursion on the list.

## Main definitions

* `CodePoint`, `Text` — code points and sequences of them.
* `Text.ofString`, `Text.toString?` — exchange with `String`; the way back
  exists exactly when no surrogate occurs.
* `Text.splitOn`, `Text.splitAround`, `Text.joinWith`, `Text.occurs` —
  cutting, joining and searching.
* `Text.digits`, `Text.ofInt` — decimal numerals.
-/

namespace Stencil

/-- A code point, surrogates included. -/
structure CodePoint where
  code : Nat
  deriving DecidableEq, Repr

/-- A sequence of code points. -/
abbrev Text := List CodePoint

namespace CodePoint

/-- The code point of a character. -/
def ofChar (c : Char) : CodePoint := ⟨c.toNat⟩

instance : Coe Char CodePoint := ⟨ofChar⟩

instance : Inhabited CodePoint := ⟨⟨0⟩⟩

/-- Code points are ordered by number. -/
instance : LT CodePoint := ⟨fun a b => a.code < b.code⟩

instance (a b : CodePoint) : Decidable (a < b) :=
  inferInstanceAs (Decidable (a.code < b.code))

/-- Halves of a surrogate pair, which no encoding form may hold alone. -/
def isSurrogate (c : CodePoint) : Bool := 0xD800 ≤ c.code && c.code ≤ 0xDFFF

/-- Membership in an inclusive range of numbers. -/
def isWithin (c : CodePoint) (low high : Nat) : Bool := low ≤ c.code && c.code ≤ high

/-- The ASCII digits `0` to `9`. -/
def isDigit (c : CodePoint) : Bool := c.isWithin 0x30 0x39

/-- The value of an ASCII digit. -/
def digitValue (c : CodePoint) : Nat := c.code - 0x30

/-- The value of a hexadecimal digit in either case. -/
def hexValue? (c : CodePoint) : Option Nat :=
  if c.isDigit then some (c.code - 0x30)
  else if c.isWithin 0x61 0x66 then some (c.code - 0x57)
  else if c.isWithin 0x41 0x46 then some (c.code - 0x37)
  else none

/-- ASCII capital letters become small, and so does the sign for kelvin,
the one other code point whose small letter is in ASCII; the rest stays. -/
def toLower (c : CodePoint) : CodePoint :=
  if c.isWithin 0x41 0x5A then ⟨c.code + 0x20⟩ else if c.code = 0x212A then 'k' else c

end CodePoint

namespace Text

/-- The code points of a string. -/
def ofString (s : String) : Text := s.toList.map CodePoint.ofChar

instance : Coe String Text := ⟨ofString⟩

/-- The string with these code points, if none of them is a surrogate. -/
def toString? (t : Text) : Option String :=
  if t.any (fun c => c.isSurrogate || 0x10FFFF < c.code) then none
  else some (String.ofList (t.map fun c => Char.ofNat c.code))

/-- Capital letters whose small letters are in ASCII become small. -/
def toLower (t : Text) : Text := t.map CodePoint.toLower

/-- Whether `part` begins `t`. -/
def startsWith (part t : Text) : Bool := part.isPrefixOf t

/-- Whether `part` occurs in `t` without a gap. -/
def occurs (part : Text) : Text → Bool
  | [] => part.isEmpty
  | c :: t => part.isPrefixOf (c :: t) || occurs part t

/-- The pieces of a text between occurrences of a code point; one more
piece than there are occurrences. -/
def splitOn (sep : CodePoint) : Text → List Text
  | [] => [[]]
  | c :: t =>
    if c = sep then [] :: splitOn sep t
    else
      match splitOn sep t with
      | [] => [[c]]
      | piece :: rest => (c :: piece) :: rest

/-- The pieces of a text between occurrences of another one, of which no
more than a given number count. The number before the text tells how much of
an occurrence is still to be passed over. -/
def splitAround (sep : Text) (most : Option Nat) : Nat → Text → List Text
  | _, [] => [[]]
  | skip + 1, _ :: t => splitAround sep most skip t
  | 0, c :: t =>
    if most ≠ some 0 && startsWith sep (c :: t) then
      [] :: splitAround sep (most.map (· - 1)) (sep.length - 1) t
    else
      match splitAround sep most 0 t with
      | [] => [[c]]
      | piece :: rest => (c :: piece) :: rest

/-- Pieces written one after another with `sep` between neighbours. -/
def joinWith (sep : Text) : List Text → Text
  | [] => []
  | [piece] => piece
  | piece :: rest => piece ++ sep ++ joinWith sep rest

/-- A run of one code point. -/
def run (length : Nat) (c : CodePoint) : Text := List.replicate length c

/-- A run of spaces. -/
def spaces (length : Nat) : Text := run length ' '

/-- Text padded with spaces on the right up to a width. -/
def padRight (width : Nat) (t : Text) : Text := t ++ spaces (width - t.length)

/-- The numeral of `n` in a base up to sixteen, with small letters. -/
def digits (base n : Nat) : Text := (Nat.toDigits base n).map CodePoint.ofChar

/-- The numeral of `n` in a base, with zeros in front up to a width. -/
def paddedDigits (base width n : Nat) : Text :=
  let ds := digits base n
  run (width - ds.length) '0' ++ ds

/-- Decimal numeral of a natural number. -/
def ofNat (n : Nat) : Text := digits 10 n

/-- Decimal numeral of an integer, with a minus sign when negative. -/
def ofInt : Int → Text
  | .ofNat n => ofNat n
  | .negSucc n => ('-' : CodePoint) :: ofNat (n + 1)

/-- The number that a run of decimal digits writes. -/
def natValue (t : Text) : Nat := t.foldl (fun n c => n * 10 + c.digitValue) 0

@[simp] theorem splitOn_nil (sep : CodePoint) : splitOn sep [] = [[]] := rfl

theorem splitOn_ne_nil (sep : CodePoint) (t : Text) : splitOn sep t ≠ [] := by
  cases t with
  | nil => simp
  | cons c t =>
    simp only [splitOn]
    split
    · simp
    · split <;> simp

end Text

end Stencil
