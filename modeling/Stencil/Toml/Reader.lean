import Stencil.Toml.Scalar
import Stencil.Toml.Tables

/-!
# Reading TOML

A text is cut into lines first, and the lines then build the document.
Arrays may spread over several lines; an inline table stays on one.

## Main definitions

* `Toml.key?`, `Toml.written` — keys and values.
* `Toml.lines` — the lines of a text, up to a flaw.
* `Toml.read` — the document that a text writes.
-/

namespace Stencil.Toml

/-! ## Keys -/

/-- Characters of a key that stands without marks. -/
def isBare (c : CodePoint) : Bool :=
  c.isDigit || c.isWithin 0x41 0x5A || c.isWithin 0x61 0x7A || c = '-' || c = '_'

/-- One part of a key: bare, or a string on one line. -/
def keyPart? : Reader Text
  | [] => none
  | c :: t =>
    if isBare c then
      let rest := t.dropWhile isBare
      some ((c :: t).take (t.length + 1 - rest.length), rest)
    else if c = '"' || c = '\'' then lineString? c t
    else none

/-- A dotted key and the blanks after it. The first argument bounds the
number of parts. -/
def keyWithin? : Nat → Reader Key
  | 0, _ => none
  | fuel + 1, t => do
    let (part, rest) ← keyPart? t
    let rest := skipBlanks rest
    match strip? "." rest with
    | none => return ([part], rest)
    | some rest =>
      let (key, rest) ← keyWithin? fuel (skipBlanks rest)
      return (part :: key, rest)

/-- A dotted key and the blanks after it. -/
def key? : Reader Key := fun t => keyWithin? (t.length + 1) t

/-! ## Comments and gaps -/

/-- What is left after a comment, which may be absent; there is none if the
comment has a control character. -/
def skipComment? (t : Text) : Option Text :=
  match strip? "#" t with
  | none => some t
  | some t =>
    let comment := t.takeWhile fun (c : CodePoint) => c ≠ '\n'
    if comment.any isControl then none else some (t.drop comment.length)

/-- What is left after gaps and comments, which may stand between the items
of an array. -/
def skipGapsWithin? : Nat → Text → Option Text
  | 0, t => some t
  | fuel + 1, t => do
    let rest ← skipComment? (t.dropWhile isGap)
    if rest.length = t.length then some rest else skipGapsWithin? fuel rest

/-- What is left after gaps and comments. -/
def skipGaps? (t : Text) : Option Text := skipGapsWithin? (t.length + 1) t

/-! ## Values -/

mutual
/-- A value. The first argument bounds the depth of the reading. -/
def writtenWithin : Nat → Text → Outcome (Written × Text)
  | 0, _ => .error .malformed
  | fuel + 1, t =>
    match strip? "[" t with
    | some rest => do
      let (items, rest) ← itemsWithin fuel (← required (skipGaps? rest))
      return (⟨.list items, true⟩, rest)
    | none =>
      match strip? "\x7b" t with
      | some rest => do
        let rest := skipBlanks rest
        match strip? "\x7d" rest with
        | some rest => return (⟨.map [], true⟩, rest)
        | none =>
          let (entries, rest) ← pairsWithin fuel .empty rest
          return (⟨.map entries, true⟩, rest)
      | none => (scalar t).map fun (v, rest) => (⟨v, false⟩, rest)

/-- The items of an array up to its end; a comma may follow the last. -/
def itemsWithin : Nat → Text → Outcome (List Value × Text)
  | 0, _ => .error .malformed
  | fuel + 1, t =>
    match strip? "]" t with
    | some rest => .ok ([], rest)
    | none => do
      let (item, rest) ← writtenWithin fuel t
      let rest ← required (skipGaps? rest)
      match strip? "]" rest with
      | some rest => return ([item.value], rest)
      | none =>
        let (items, rest) ← itemsWithin fuel (← required (strip? "," rest >>= skipGaps?))
        return (item.value :: items, rest)

/-- The entries of an inline table up to its end, after some pairs; there is
at least one more, and no comma follows the last. -/
def pairsWithin : Nat → Inline → Text → Outcome (Entries × Text)
  | 0, _, _ => .error .malformed
  | fuel + 1, table, t => do
    let (key, rest) ← required (key? t)
    let (w, rest) ← writtenWithin fuel (skipBlanks (← required (strip? "=" rest)))
    let table ← required (table.add? key w)
    let rest := skipBlanks rest
    match strip? "\x7d" rest with
    | some rest => return (table.entries, rest)
    | none => pairsWithin fuel table (skipBlanks (← required (strip? "," rest)))
end

/-- A value. -/
def written (t : Text) : Outcome (Written × Text) := writtenWithin (2 * t.length + 2) t

/-! ## Lines -/

/-- A header between brackets, one or two on each side. -/
def header? (opening closing : Text) : Reader Key := fun t => do
  let (key, rest) ← key? (skipBlanks (← strip? opening t))
  return (key, ← strip? closing rest)

/-- A line that says something. -/
def line (t : Text) : Outcome (Line × Text) :=
  if Text.startsWith "[[" t then
    required ((header? "[[" "]]" t).map fun (k, rest) => (.element k, rest))
  else if Text.startsWith "[" t then
    required ((header? "[" "]" t).map fun (k, rest) => (.table k, rest))
  else do
    let (key, rest) ← required (key? t)
    let (value, rest) ← written (skipBlanks (← required (strip? "=" rest)))
    return (.assign key value, rest)

/-- What is left after the end of a line: blanks, a comment, and a line
feed unless the text ends. -/
def lineEnd? (t : Text) : Option Text := do
  match ← skipComment? (skipBlanks t) with
  | [] => some []
  | c :: rest => if c = '\n' then some rest else none

/-- The lines of a text up to its end or to a flaw; the first argument
bounds their number. -/
def linesWithin : Nat → Text → List Line × Option Flaw
  | 0, _ => ([], some .malformed)
  | fuel + 1, t =>
    match skipBlanks t with
    | [] => ([], none)
    | c :: t =>
      if c = '#' || c = '\n' then
        match lineEnd? (c :: t) with
        | some rest => linesWithin fuel rest
        | none => ([], some .malformed)
      else
        match line (c :: t) with
        | .error flaw => ([], some flaw)
        | .ok (line, rest) =>
          match lineEnd? rest with
          | some rest =>
            let (lines, flaw) := linesWithin fuel rest
            (line :: lines, flaw)
          | none => ([line], some .malformed)

/-- The lines of a text that say something, up to a flaw. -/
def lines (t : Text) : List Line × Option Flaw := linesWithin (t.length + 1) t

/-- The document that a text writes. Of several flaws the first one counts,
and lines that do not agree with each other come before a flaw that is
found after them. -/
def read (t : Text) : Outcome Entries :=
  let (lines, flaw) := lines t
  match ofLines? lines, flaw with
  | none, _ => .error .malformed
  | some _, some flaw => .error flaw
  | some es, none => .ok es

end Stencil.Toml
