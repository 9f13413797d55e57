import Stencil.Text.Utf8

/-!
# Text as the system has it

The system names files by bytes. A text stands for those of its UTF-8 form, and a
surrogate of one range in it for a single byte that belongs to no UTF-8 form. No
other surrogate stands for anything, and the byte zero ends all names.

## Main definitions

* `Native.size` — the number of bytes that a text stands for.
* `Native.obstacle?` — why a text stands for none.
-/

namespace Stencil.Native

/-- Surrogates that stand for single bytes. -/
def isEscape (c : CodePoint) : Bool := c.isWithin 0xDC80 0xDCFF

/-- Surrogates that stand for nothing. -/
def isMeaningless (c : CodePoint) : Bool := c.isSurrogate && !isEscape c

/-- The bytes that a code point stands for. -/
def bytesOf (c : CodePoint) : List UInt8 :=
  if isEscape c then [(c.code - 0xDC00).toUInt8] else Utf8.bytesOf c

/-- The number of bytes that a text stands for. -/
def size (t : Text) : Nat := (t.flatMap bytesOf).length

/-- What keeps a text from being handed to the system. -/
inductive Obstacle where
  /-- A surrogate that stands for nothing. -/
  | unencodable (run : Utf8.Obstacle)
  /-- The byte that ends all names. -/
  | terminator
  deriving DecidableEq, Repr

/-- What keeps a text from being handed to the system, if there is anything. The
terminator is looked for last. -/
def obstacle? (t : Text) : Option Obstacle :=
  match Utf8.obstacleFrom isMeaningless 0 t with
  | some run => some (.unencodable run)
  | none => if t.any (·.code = 0) then some .terminator else none

/-- An obstacle in words. -/
def Obstacle.message : Obstacle → Text
  | .unencodable run => run.message
  | .terminator => "embedded null byte"

end Stencil.Native
