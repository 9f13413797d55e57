import Stencil.Number.Binary64

/-!
# The shortest decimal of a number

A floating-point number is written with the fewest decimal digits that
read back as the same number; among numerals of that length the nearest
one is taken. Numbers from one ten-thousandth up to ten to the sixteenth
are written positionally, all others with an exponent of at least two
digits.

The digits are found in exact arithmetic: the numbers that round to `x`
form an interval around it, and for one digit, two digits, … the two
neighbours of `x` with that many digits are tested against the interval.

## Main definitions

* `Binary64.Interval` — the interval of reals that round to a number.
* `Binary64.shortest` — the digits and the decimal exponent.
* `Binary64.text` — the written form.
-/

namespace Stencil.Binary64

/-- A positive number and the ends of the reals that round to it, as
numerators over one denominator. -/
structure Interval where
  low : Nat
  value : Nat
  high : Nat
  denominator : Nat
  closed : Bool

/-- The interval of a positive finite number. Its ends belong to it exactly
when the full mantissa is even, and the lower end is twice as near when the
number below has a smaller exponent. -/
def Interval.of (mantissa : Nat) (exponent : Int) : Interval :=
  let wanted : Nat := 52 - mantissa.log2
  let room : Nat := (exponent - leastExponent).toNat
  let shift := min wanted room
  let full := mantissa <<< shift
  let last := exponent - shift
  let atEdge := full = 1 <<< 52 && leastExponent < last
  let value := 4 * full
  let low := value - if atEdge then 1 else 2
  let high := value + 2
  match last - 2 with
  | .ofNat k => ⟨low <<< k, value <<< k, high <<< k, 1, full % 2 = 0⟩
  | .negSucc k => ⟨low, value, high, 1 <<< (k + 1), full % 2 = 0⟩

/-- Whether `digits · 10 ^ exponent` lies in an interval. -/
def Interval.contains (i : Interval) (digits : Nat) (exponent : Int) : Bool :=
  let (scale, point) : Nat × Nat :=
    match exponent with
    | .ofNat k => (1, digits * Nat.pow 10 k * i.denominator)
    | .negSucc k => (Nat.pow 10 (k + 1), digits * i.denominator)
  if i.closed then i.low * scale ≤ point && point ≤ i.high * scale
  else i.low * scale < point && point < i.high * scale

/-- How many zeros follow the decimal point of `num / den < 1`, counted
from a start. -/
def leadingZeros (fuel num den : Nat) : Nat :=
  match fuel with
  | 0 => 0
  | fuel + 1 => if den ≤ num * 10 then 0 else leadingZeros fuel (num * 10) den + 1

/-- The exponent of the first significant decimal digit. -/
def Interval.magnitude (i : Interval) : Int :=
  if i.denominator ≤ i.value then (Nat.toDigits 10 (i.value / i.denominator)).length - 1
  else -1 - leadingZeros 400 i.value i.denominator

/-- The numeral of an interval with a given number of digits, if there is
one: the nearer of the two neighbours of the value, an exact tie going to
the even one. -/
def Interval.numeral? (i : Interval) (exponent : Int) : Option Nat :=
  let (num, den) : Nat × Nat :=
    match exponent with
    | .ofNat k => (i.value, i.denominator * Nat.pow 10 k)
    | .negSucc k => (i.value * Nat.pow 10 (k + 1), i.denominator)
  let below := num / den
  let rounded := roundedQuotient num den
  let other := if rounded = below then below + 1 else below
  if i.contains rounded exponent then some rounded
  else if i.contains other exponent then some other
  else none

/-- The first numeral found when the number of digits grows. -/
def Interval.search (i : Interval) : Nat → Int → Nat × Int
  | 0, exponent => (roundedQuotient i.value i.denominator, exponent)
  | fuel + 1, exponent =>
    match i.numeral? exponent with
    | some n => (n, exponent)
    | none => i.search fuel (exponent - 1)

/-- The fewest digits that read back as `mantissa · 2 ^ exponent`, with the
decimal exponent of the last of them. -/
def shortest (mantissa : Nat) (exponent : Int) : Nat × Int :=
  let i := Interval.of mantissa exponent
  i.search 20 i.magnitude

/-- Digits without zeros at their end. -/
def stripZeros (digits : Text) : Text :=
  (digits.reverse.dropWhile fun (c : CodePoint) => c = '0').reverse

/-- Significant digits and the exponent of the first one, written
positionally or with an exponent. -/
def layout (digits : Text) (magnitude : Int) : Text :=
  if -4 ≤ magnitude && magnitude < 16 then
    match magnitude with
    | .ofNat k =>
      let whole := digits.take (k + 1)
      let fraction : Text := if digits.length ≤ k + 1 then "0" else digits.drop (k + 1)
      whole ++ Text.run (k + 1 - whole.length) '0' ++ "." ++ fraction
    | .negSucc k => "0." ++ Text.run k '0' ++ digits
  else
    let significand := digits.take 1 ++
      if digits.length ≤ 1 then [] else ("." : Text) ++ digits.drop 1
    let sign : Text := if magnitude < 0 then "-" else "+"
    significand ++ "e" ++ sign ++ Text.paddedDigits 10 2 magnitude.natAbs

/-- The shortest text of a number: `0.1`, `1.0`, `1e-07`, `1e+16`, `-inf`,
`nan`. -/
def text : Binary64 → Text
  | .nan _ => "nan"
  | .infinite negative => if negative then "-inf" else "inf"
  | .finite negative m e =>
    let sign : Text := if negative then "-" else ""
    if m = 0 then sign ++ "0.0"
    else
      let (n, last) := shortest m e
      let digits := Text.ofNat n
      sign ++ layout (stripZeros digits) (last + digits.length - 1)

end Stencil.Binary64
