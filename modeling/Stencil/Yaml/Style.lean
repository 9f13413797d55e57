import Stencil.Yaml.Tag

/-!
# How a scalar may be written

A scalar can stand without marks, between apostrophes or between double
quotes. The first two show the text almost as it is and are therefore not
always possible: without marks nothing may look like structure, and only
double quotes have escapes. The style is the plainest one that is allowed,
with two exceptions: a text with a line feed, or with an apostrophe that
plain style cannot take, goes between double quotes.

## Main definitions

* `Yaml.Style` — the styles.
* `Yaml.allowsPlain`, `Yaml.allowsSingle` — where the first two are
  possible.
* `Yaml.Style.choose` — the style of a scalar.
-/

namespace Stencil.Yaml

/-- Code points that end a line. -/
def isBreak (c : CodePoint) : Bool :=
  c = '\n' || c.code = 0x85 || c.code = 0x2028 || c.code = 0x2029

/-- Code points that separate words, the end of the text aside. -/
def isBlank (c : CodePoint) : Bool :=
  c.code = 0 || c = ' ' || c = '\t' || c = '\r' || isBreak c

/-- Code points that stand for themselves between marks. -/
def isShown (c : CodePoint) : Bool :=
  c.isWithin 0x20 0x7E || c.code = 0x85 || c.isWithin 0xA0 0xD7FF ||
    (c.isWithin 0xE000 0xFFFD && c.code ≠ 0xFEFF) || c.isWithin 0x10000 0x10FFFF

/-- Whether a text is empty or goes on with a blank. -/
def endsWord : Text → Bool
  | [] => true
  | c :: _ => isBlank c

/-- Structure at the start of a text: a reserved code point, a mark that a
blank follows, or a line of a document's own. -/
def startsStructure : Text → Bool
  | [] => false
  | c :: t =>
    (Text.ofString "#,[]\x7b\x7d&*!|>'\"%@`").contains c ||
      ((c = '?' || c = ':' || c = '-') && endsWord t) ||
      Text.startsWith "---" (c :: t) || Text.startsWith "..." (c :: t)

/-- Structure inside a text, where `previous` comes before it: a colon at
the end of a word or a number sign at the start of one. -/
def holdsStructure (previous : CodePoint) : Text → Bool
  | [] => false
  | c :: t =>
    (c = ':' && endsWord t) || (c = '#' && isBlank previous) || holdsStructure c t

/-- Whether a space stands next to a line end. -/
def hasSpaceAtBreak : Text → Bool
  | a :: b :: t =>
    (a = ' ' && isBreak b) || (isBreak a && b = ' ') || hasSpaceAtBreak (b :: t)
  | _ => false

/-- Whether a text has more than one line. -/
def isMultiline (t : Text) : Bool := t.any isBreak

/-- Whether every code point can be shown; a line feed counts as shown. -/
def isShowable (t : Text) : Bool := t.all fun (c : CodePoint) => c = '\n' || isShown c

/-- Whether a text may stand between apostrophes. -/
def allowsSingle (t : Text) : Bool := isShowable t && !hasSpaceAtBreak t

/-- Whether a text may stand without marks. -/
def allowsPlain (t : Text) : Bool :=
  allowsSingle t && !isMultiline t && t.head? ≠ some ' ' && t.getLast? ≠ some ' ' &&
    !startsStructure t &&
    match t with
    | [] => true
    | c :: rest => !holdsStructure c rest

/-- The styles of a scalar. -/
inductive Style where
  | plain | single | double
  deriving DecidableEq, Repr

/-- The style of a scalar. A key that shares its line with a value may be
neither empty nor of several lines in the first two styles. -/
def Style.choose (isKey : Bool) (tag : Tag) (t : Text) : Style :=
  if Tag.ofPlain t = tag && allowsPlain t && !(isKey && t.isEmpty) then .plain
  else if t.contains (CodePoint.ofChar '\'') || t.contains (CodePoint.ofChar '\n') then .double
  else if allowsSingle t && !(isKey && isMultiline t) then .single
  else .double

end Stencil.Yaml
