import Stencil.Text.Basic

/-!
# Base64

Bytes are written in a text format as base64: three bytes become four
letters, the last group is filled up with equals signs, and lines are cut
after 76 letters.

## Main definitions

* `Base64.encode` — the letters of a byte string.
* `Base64.lines` — the letters cut into lines.
-/

namespace Stencil.Base64

/-- The sixty-four letters. -/
def alphabet : Text := "ABCDEFGHIJKLMNOPQRSTUVWXYZabcdefghijklmnopqrstuvwxyz0123456789+/"

/-- The letter of a six-bit number. -/
def letter (n : Nat) : CodePoint := alphabet.getD (n % 64) '='

/-- The letters of a byte string. -/
def encode : List UInt8 → Text
  | [] => []
  | [a] =>
    let n := a.toNat * 0x10000
    [letter (n >>> 18), letter (n >>> 12), '=', '=']
  | [a, b] =>
    let n := a.toNat * 0x10000 + b.toNat * 0x100
    [letter (n >>> 18), letter (n >>> 12), letter (n >>> 6), '=']
  | a :: b :: c :: rest =>
    let n := a.toNat * 0x10000 + b.toNat * 0x100 + c.toNat
    letter (n >>> 18) :: letter (n >>> 12) :: letter (n >>> 6) :: letter n :: encode rest

/-- The letters of a byte string in lines of 76; fifty-seven bytes fill a
line. The fuel bounds the number of lines. -/
def linesOf : Nat → List UInt8 → List Text
  | 0, _ => []
  | _, [] => []
  | fuel + 1, bytes => encode (bytes.take 57) :: linesOf fuel (bytes.drop 57)

/-- The lines of a byte string. -/
def lines (bytes : List UInt8) : List Text := linesOf bytes.length bytes

end Stencil.Base64
