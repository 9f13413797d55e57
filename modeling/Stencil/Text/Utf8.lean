import Stencil.Text.Quoted

/-!
# Encoding text as UTF-8

Output is bytes. Every code point has one UTF-8 form except the
surrogates, so encoding either succeeds or names the first run of
surrogates that stands in the way.

## Main definitions

* `Utf8.encode` — the bytes of a text, or the first obstacle.
* `Utf8.Obstacle.message` — the obstacle in words.
-/

namespace Stencil.Utf8

/-- The first run of surrogates of a text: how many code points come before
it, the surrogate it starts with, and how many follow that one. -/
structure Obstacle where
  start : Nat
  first : CodePoint
  more : Nat
  deriving DecidableEq, Repr

/-- The bytes of a code point that is not a surrogate. -/
def bytesOf (c : CodePoint) : List UInt8 :=
  let n := c.code
  let tail (shift : Nat) : UInt8 := (0x80 + n >>> shift % 0x40).toUInt8
  if n < 0x80 then [n.toUInt8]
  else if n < 0x800 then [(0xC0 + n >>> 6).toUInt8, tail 0]
  else if n < 0x10000 then [(0xE0 + n >>> 12).toUInt8, tail 6, tail 0]
  else [(0xF0 + n >>> 18).toUInt8, tail 12, tail 6, tail 0]

/-- The first run of surrogates that begins with one of some kind, counting from
a position. -/
def obstacleFrom (stops : CodePoint → Bool) (position : Nat) : Text → Option Obstacle
  | [] => none
  | c :: t =>
    if stops c then some ⟨position, c, (t.takeWhile CodePoint.isSurrogate).length⟩
    else obstacleFrom stops (position + 1) t

/-- The first run of surrogates of a text. -/
def obstacle? (t : Text) : Option Obstacle := obstacleFrom CodePoint.isSurrogate 0 t

/-- The bytes of a text, unless it holds a surrogate. -/
def encode (t : Text) : Except Obstacle (List UInt8) :=
  match obstacle? t with
  | some o => .error o
  | none => .ok (t.flatMap bytesOf)

/-- An obstacle in words: a lone surrogate is shown, a longer run is given
by its first and last position. -/
def Obstacle.message (o : Obstacle) : Text :=
  let codec : Text := "'utf-8' codec can't encode character"
  let place : Text :=
    if o.more = 0 then
      " '" ++ Text.numbered o.first ++ "' in position " ++ Text.ofNat o.start
    else
      "s in position " ++ Text.ofNat o.start ++ "-" ++ Text.ofNat (o.start + o.more)
  codec ++ place ++ ": surrogates not allowed"

end Stencil.Utf8
