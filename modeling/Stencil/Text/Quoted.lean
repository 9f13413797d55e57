import Stencil.Text.Printable

/-!
# Quoted text

Messages show a text or a byte string between quotation marks, so that a
reader sees where it ends and which code points it holds. The marks are
apostrophes, unless the content has an apostrophe and no double quote.
Whatever is not printable is written by number in the shortest of three
fixed widths.

## Main definitions

* `Text.quoted` — a text between marks.
* `Text.quotedBytes` — a byte string between marks.
-/

namespace Stencil.Text

/-- The mark that surrounds a content: a double quote exactly when the
content has an apostrophe and no double quote. -/
def mark (content : Text) : CodePoint :=
  if CodePoint.ofChar '\'' ∈ content && CodePoint.ofChar '"' ∉ content then '"' else '\''

/-- A code point by number: two, four or eight hexadecimal digits. -/
def numbered (c : CodePoint) : Text :=
  if c.code < 0x100 then ofString "\\x" ++ paddedDigits 16 2 c.code
  else if c.code < 0x10000 then ofString "\\u" ++ paddedDigits 16 4 c.code
  else ofString "\\U" ++ paddedDigits 16 8 c.code

/-- One code point inside quotation marks. -/
def quotedPoint (mark c : CodePoint) : Text :=
  if c = mark || c = '\\' then ['\\', c]
  else if c = '\n' then ofString "\\n"
  else if c = '\t' then ofString "\\t"
  else if c = '\r' then ofString "\\r"
  else if c.isPrintable then [c]
  else numbered c

/-- A text between quotation marks. -/
def quoted (t : Text) : Text :=
  let m := mark t
  m :: t.flatMap (quotedPoint m) ++ [m]

/-- A byte string between quotation marks, after the letter `b`; bytes
outside printable ASCII are written by number. -/
def quotedBytes (bytes : List UInt8) : Text :=
  let content : Text := bytes.map fun b => ⟨b.toNat⟩
  let m := mark content
  let shown := content.flatMap fun c =>
    if 0x7F ≤ c.code then numbered c else quotedPoint m c
  ('b' : CodePoint) :: m :: shown ++ [m]

end Stencil.Text
