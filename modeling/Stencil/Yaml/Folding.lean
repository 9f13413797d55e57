import Stencil.Yaml.Style

/-!
# Writing scalars within the width of a line

Long scalars are folded: where the text has a space and the line is full, a
line break is written instead, and the next line is indented. A reader
joins the lines again with one space. Where that would lose something the
double-quoted style breaks after a backslash, which joins the lines without
a space.

Each writer walks once over the text and knows the column it has reached.

## Main definitions

* `Yaml.Frame` — the indentation of continued lines, and whether the text
  may be broken at spaces.
* `Yaml.foldPlain`, `Yaml.foldSingle`, `Yaml.foldDouble` — the three styles.
* `Yaml.escape` — a code point inside double quotes.
-/

namespace Stencil.Yaml

/-- The column after which lines are broken. -/
def lineWidth : Nat := 80

/-- How a scalar may be continued: the indentation of its further lines,
which a scalar outside all collections lacks, and whether it may be broken
at spaces, which a key may not. -/
structure Frame where
  indent : Option Nat
  breakable : Bool

namespace Frame

/-- The indentation of continued lines. -/
def margin (f : Frame) : Nat := f.indent.getD 0

/-- A line break with the indentation of the next line. -/
def newline (f : Frame) : Text := ("\n" : Text) ++ Text.spaces f.margin

/-- Whether a word that starts at a column is moved to a line of its own. -/
def movesWord (f : Frame) (column length : Nat) : Bool :=
  match f.indent with
  | some i => lineWidth < column + length && i < column
  | none => false

end Frame

/-- Whether a text goes on with a space. -/
def spaceAhead (t : Text) : Bool := t.head? = some (' ' : CodePoint)

/-- A text without marks. `afterSpace` tells that no word has begun: the
text has just started or a space has just been read. -/
def foldPlain (f : Frame) (column : Nat) (afterSpace : Bool) : Text → Text
  | [] => []
  | c :: t =>
    if c = ' ' then
      if f.breakable && !afterSpace && !spaceAhead t && lineWidth ≤ column then
        f.newline ++ foldPlain f f.margin true t
      else c :: foldPlain f (column + 1) true t
    else if afterSpace &&
        f.movesWord column (t.takeWhile fun (d : CodePoint) => d ≠ ' ').length.succ then
      f.newline ++ c :: foldPlain f (f.margin + 1) false t
    else c :: foldPlain f (column + 1) false t

/-- A text between apostrophes, without the marks. `afterSpace` tells that
the text has just started or a space has just been read. -/
def foldSingle (f : Frame) (column : Nat) (afterSpace : Bool) : Text → Text
  | [] => []
  | c :: t =>
    if c = ' ' then
      if f.breakable && !afterSpace && !t.isEmpty && !spaceAhead t && lineWidth < column then
        f.newline ++ foldSingle f f.margin true t
      else c :: foldSingle f (column + 1) true t
    else if isBreak c then
      if (t.head?.map isBreak).getD false then c :: foldSingle f 0 false t
      else c :: Text.spaces f.margin ++ foldSingle f f.margin false t
    else if c = '\'' then c :: c :: foldSingle f (column + 2) false t
    else c :: foldSingle f (column + 1) false t

/-- The escapes of one letter. -/
def escapeLetters : List (Nat × Char) :=
  [(0x00, '0'), (0x07, 'a'), (0x08, 'b'), (0x09, 't'), (0x0A, 'n'), (0x0B, 'v'), (0x0C, 'f'),
   (0x0D, 'r'), (0x1B, 'e'), (0x22, '"'), (0x5C, '\\'), (0x85, 'N'), (0x2028, 'L'),
   (0x2029, 'P')]

/-- A code point inside double quotes, if it cannot stand for itself. -/
def escape (c : CodePoint) : Option Text :=
  if isShown c && !isBreak c && c ≠ '"' && c ≠ '\\' then none
  else
    match escapeLetters.lookup c.code with
    | some letter => some ['\\', letter]
    | none =>
      let number (mark : CodePoint) (width : Nat) : Text :=
        '\\' :: mark :: (Text.paddedDigits 16 width c.code).map
          fun (d : CodePoint) => if d.isDigit then d else ⟨d.code - 0x20⟩
      if c.code < 0x100 then some (number 'x' 2)
      else if c.code < 0x10000 then some (number 'u' 4)
      else some (number 'U' 8)

/-- Whether a code point is a space or a line feed. -/
def isSpaceOrFeed (c : CodePoint) : Bool := c = ' ' || c = '\n'

/-- Whether a line may end before `ahead` without a backslash: another
space is ahead, the word up to it holds no quotation mark, apostrophe or
line feed, and neither a space nor a line feed comes right after it. -/
def joinsBySpace (ahead : Text) : Bool :=
  match ahead.dropWhile fun (c : CodePoint) => c ≠ ' ' with
  | _ :: next :: _ =>
    !isSpaceOrFeed next &&
      (ahead.takeWhile fun (c : CodePoint) => c ≠ ' ').all
        fun (c : CodePoint) => c ≠ '"' && c ≠ '\'' && c ≠ '\n'
  | _ => false

/-- A line break after a backslash; a space at the start of the next line
needs a backslash too. -/
def Frame.escapedNewline (f : Frame) (ahead : Text) : Text :=
  ("\\" : Text) ++ f.newline ++ Text.run (if spaceAhead ahead then 1 else 0) '\\'

/-- The columns that the second backslash of an escaped line break takes. -/
def Frame.escapedColumn (f : Frame) (ahead : Text) : Nat :=
  f.margin + if spaceAhead ahead then 1 else 0

/-- A text between double quotes, without the marks. `previous` is the code
point before, if any; `fresh` tells that nothing unescaped has been written
since the last escape or line break. A space that a line break replaces is
dropped; where it was due after an escape and the margin is itself beyond the
width, the line break is repeated. -/
def foldDouble (f : Frame) (column : Nat) (previous : Option CodePoint) (fresh : Bool) :
    Text → Text
  | [] => []
  | c :: t =>
    let inside := previous.isSome && !t.isEmpty && f.breakable
    match escape c with
    | some escaped =>
      let column := column + escaped.length
      if inside && lineWidth + 1 < column then
        if joinsBySpace (c :: t) then
          escaped ++ f.newline ++
            match t with
            | [] => []
            | d :: t' =>
              if d = ' ' then
                (if lineWidth + 1 < f.margin then f.newline else []) ++
                  foldDouble f f.margin (some d) true t'
              else foldDouble f f.margin (some c) true (d :: t')
        else
          escaped ++ f.escapedNewline t ++ foldDouble f (f.escapedColumn t) (some c) true t
      else escaped ++ foldDouble f column (some c) true t
    | none =>
      if inside && (c = ' ' || fresh) && lineWidth < column then
        if !fresh && previous ≠ some ' ' && joinsBySpace (c :: t) then
          f.newline ++ foldDouble f f.margin (some c) true t
        else
          f.escapedNewline (c :: t) ++
            c :: foldDouble f (f.escapedColumn (c :: t) + 1) (some c) false t
      else c :: foldDouble f (column + 1) (some c) false t

/-- A scalar from its first mark on, where `column` is where it starts. -/
def foldScalar (f : Frame) (column : Nat) (style : Style) (t : Text) : Text :=
  match style with
  | .plain => foldPlain f column true t
  | .single => ("'" : Text) ++ foldSingle f (column + 1) true t ++ ("'" : Text)
  | .double => ("\"" : Text) ++ foldDouble f (column + 1) none true t ++ ("\"" : Text)

end Stencil.Yaml
