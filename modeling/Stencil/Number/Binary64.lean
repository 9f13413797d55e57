import Stencil.Text.Basic

/-!
# Binary floating-point numbers

A floating-point value of a document is kept as the number it stands for,
not as a machine word: a sign, an odd mantissa and a power of two, so that
two finite numbers are equal exactly when their representations are, zeros
apart. Rounding a decimal numeral to the nearest such number is done on
natural numbers.

A NaN differs from every number, itself included, yet a container that
holds one finds it again. It therefore carries a tag that tells it from
the other NaNs around it.

## Main definitions

* `Binary64` — finite, infinite, or a tagged NaN.
* `Binary64.integer?` — the integer that a finite number equals, if any.
* `Binary64.ofRatio`, `Binary64.ofDecimal` — rounding to the nearest number
  of the format, ties to an even mantissa.
-/

namespace Stencil

/-- A binary floating-point number with 53 bits of precision. A finite one
stands for `± mantissa · 2 ^ exponent`, where the mantissa is odd, or zero
with exponent zero. -/
inductive Binary64 where
  | finite (negative : Bool) (mantissa : Nat) (exponent : Int)
  | infinite (negative : Bool)
  | nan (tag : Nat)
  deriving DecidableEq, Repr

namespace Binary64

/-- Moves factors of two from a mantissa into its exponent. -/
def oddPart : Nat → Nat → Int → Nat × Int
  | 0, m, e => (m, e)
  | fuel + 1, m, e => if m % 2 = 0 then oddPart fuel (m / 2) (e + 1) else (m, e)

/-- The number `± mantissa · 2 ^ exponent` in lowest form. -/
def normal (negative : Bool) (mantissa : Nat) (exponent : Int) : Binary64 :=
  if mantissa = 0 then .finite negative 0 0
  else
    let (m, e) := oddPart mantissa.log2 mantissa exponent
    .finite negative m e

/-- The exponent of the last bit of the smallest positive number. -/
def leastExponent : Int := -1074

/-- Quotient of two natural numbers rounded to the nearest one, a half to
the even neighbour. -/
def roundedQuotient (num den : Nat) : Nat :=
  let q := num / den
  let twice := 2 * (num % den)
  if twice < den then q
  else if den < twice then q + 1
  else q + q % 2

/-- A natural number over a natural number, both scaled by a power of two,
rounded. -/
def scaledQuotient (num den : Nat) (exponent : Int) : Nat :=
  match exponent with
  | .ofNat k => roundedQuotient num (den <<< k)
  | .negSucc k => roundedQuotient (num <<< (k + 1)) den

/-- The number of the format nearest to `± num / den`. -/
def ofRatio (negative : Bool) (num den : Nat) : Binary64 :=
  if num = 0 || den = 0 then .finite negative 0 0
  else
    let guess : Int := (num.log2 : Int) - den.log2 - 52
    let below : Bool :=
      match guess with
      | .ofNat k => num < (den <<< k) <<< 52
      | .negSucc k => num <<< (k + 1) < den <<< 52
    let exponent := max leastExponent (if below then guess - 1 else guess)
    let mantissa := scaledQuotient num den exponent
    if 1024 ≤ (mantissa.log2 : Int) + exponent then .infinite negative
    else normal negative mantissa exponent

/-- The number nearest to `± digits · 10 ^ exponent`. Exponents far outside
the range are answered without computing the power. -/
def ofDecimal (negative : Bool) (digits : Nat) (exponent : Int) : Binary64 :=
  let size : Int := exponent + (Nat.toDigits 10 digits).length
  if digits = 0 || size < -330 then .finite negative 0 0
  else if 320 < size then .infinite negative
  else
    match exponent with
    | .ofNat k => ofRatio negative (digits * Nat.pow 10 k) 1
    | .negSucc k => ofRatio negative digits (Nat.pow 10 (k + 1))

/-- The integer that a finite number equals, if it equals one. -/
def integer? : Binary64 → Option Int
  | .finite negative m (.ofNat k) =>
    let n : Int := (m <<< k : Nat)
    some (if negative then -n else n)
  | _ => none

/-- Whether the number is a NaN. -/
def isNaN : Binary64 → Bool
  | .nan _ => true
  | _ => false

/-- The number that a decimal numeral writes: whole digits, fraction
digits and an exponent. -/
def ofNumeral (negative : Bool) (whole fraction : Text) (exponent : Int) : Binary64 :=
  ofDecimal negative (Text.natValue (whole ++ fraction)) (exponent - fraction.length)

/-- An integer written with an optional sign. -/
def signedValue : Text → Int
  | c :: t =>
    if c = '-' then -(Text.natValue t : Int)
    else if c = '+' then Text.natValue t
    else Text.natValue (c :: t)
  | [] => 0

/-- Reads the shortest text of a number back: a decimal numeral, or `inf`
or `nan`, each with an optional sign. A NaN gets the given tag. -/
def ofText (tag : Nat) (t : Text) : Binary64 :=
  let negative := Text.startsWith "-" t
  let body := if negative then t.drop 1 else t
  if body = ("inf" : Text) then .infinite negative
  else if body = ("nan" : Text) then .nan tag
  else
    let significand := body.takeWhile fun (c : CodePoint) => c ≠ 'e' && c ≠ 'E'
    let exponent := signedValue (body.drop (significand.length + 1))
    let whole := significand.takeWhile fun (c : CodePoint) => c ≠ '.'
    ofNumeral negative whole (significand.drop (whole.length + 1)) exponent

end Binary64

end Stencil
