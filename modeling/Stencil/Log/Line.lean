import Stencil.Log.Event

/-!
# Log lines for readers

A reader gets an event on one line: level and text in columns of fixed
width, the logger in brackets, and the fields in the order of their names.
What tells of an exception or of the calls that were under way goes below
the line. A text that itself has several lines is shown as it is, so an
event may take up more than one line of the output.

## Main definitions

* `Log.Event.columns` — the parts of the line.
* `Log.Event.below` — what goes below it.
* `Log.Event.shown` — an event as it is shown.
* `Log.Event.shownLines` — the lines of the output, without their times.
-/

namespace Stencil

/-- Code points that end a line. -/
def CodePoint.endsLine (c : CodePoint) : Bool :=
  c.isWithin 0x0A 0x0D || c.isWithin 0x1C 0x1E || c.code = 0x85 || c.isWithin 0x2028 0x2029

/-- The lines of a text. A carriage return and a line feed end one line
together, and after the last end there is no further line. -/
def Text.lines : Text → List Text
  | [] => []
  | c :: t =>
    if c = '\r' && t.head? = some ('\n' : CodePoint) then lines t
    else if c.endsLine then [] :: lines t
    else
      match lines t with
      | [] => [[c]]
      | line :: rest => (c :: line) :: rest

namespace Log

/-- Whether a text is written in a form, in which zeros stand for digits. -/
def hasForm : Text → Text → Bool
  | [], [] => true
  | f :: form, c :: t => (if f = '0' then c.isDigit else c = f) && hasForm form t
  | _, _ => false

/-- A line without the point in time that it begins with, if it does. -/
def withoutTime (line : Text) : Text :=
  let time := line.drop 11
  let rest := time.dropWhile fun (c : CodePoint) => c.isDigit || c = ':' || c = '.'
  if hasForm "0000-00-00T" (line.take 11) && rest.length < time.length &&
      Text.startsWith "Z " rest then rest.drop 2
  else line

namespace Event

/-- The width of the column for texts. -/
def textWidth : Nat := 30

/-- The width of the column for levels. -/
def levelWidth : Nat := 9

/-- Code points that make a text unclear where it is not quoted. -/
def isUnclear (c : CodePoint) : Bool :=
  c = ' ' || c = '\t' || c = '=' || c = '\r' || c = '\n' || c = '"' || c = '\''

/-- A value in a line: a clear text as it is, anything else as a literal. -/
def fieldText : Value → Text
  | .str t => if t.any isUnclear then t.quoted else t
  | v => v.literal

/-- The fields that have places of their own. -/
def placedNames : List Text := ["stack", "exception", "exc_info", "logger_name"]

/-- The other fields in the order of their names. -/
def sortedFields (e : Event) : List (Text × Value) :=
  (e.fields.filter fun f => !placedNames.contains f.1).mergeSort fun a b => !decide (b.1 < a.1)

/-- The parts of the line. -/
def columns (e : Event) : List Text :=
  let said : List Text :=
    match e.content with
    | .null => []
    | v => [v.display.padRight textWidth]
  let further := (e.fields.lookup ("logger_name" : Text)).toList.map Value.display
  [("[" : Text) ++ e.level.name.padRight levelWidth ++ "]"] ++ said ++
    (e.loggerName :: further).map (Value.enclosed "[" "]") ++
    e.sortedFields.map fun f => f.1 ++ "=" ++ fieldText f.2

/-- A field that is there and not null. -/
def given? (e : Event) (name : Text) : Option Value :=
  match e.fields.lookup name with
  | some .null | none => none
  | some v => some v

/-- What goes below the line: the calls under way, and the exception, with a
rule between them if there are both or if there might be. -/
def below (e : Event) : Text :=
  let exception := e.given? "exception"
  let expected := exception.isSome || ((e.given? "exc_info").map Value.isSomething).getD false
  let calls : Text :=
    match e.given? "stack" with
    | none => []
    | some v =>
      ("\n" : Text) ++ v.display ++
        if expected then ("\n\n" : Text) ++ Text.run 79 '=' ++ "\n" else []
  calls ++
    match exception with
    | none => []
    | some v => ("\n" : Text) ++ v.display

/-- An event as it is shown. -/
def shown (e : Event) : Text := Text.joinWith " " e.columns ++ e.below

/-- The lines that an event takes up in the output. -/
def shownLines (e : Event) : List Text := (Text.lines (e.shown ++ "\n")).map withoutTime

end Event

end Log

end Stencil
