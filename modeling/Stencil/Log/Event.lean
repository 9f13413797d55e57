import Stencil.Failure
import Stencil.Text.Named

/-!
# Log events

An event has a logger, a level, something that is said, and fields by name.
Loggers form a tree by the dots in their names, and the level from which on
events are shown is that of the nearest logger above that has one. A record
of an event is a table: its fields, and what the event has in any case under
names of its own.

## Main definitions

* `Log.Level` — the levels, with rank and name.
* `Log.Verbosity` — what is shown of which logger.
* `Log.Event`, `Log.Event.ofCall` — events, and the calls that make them.
* `Log.Event.record` — an event as a table.
-/

namespace Stencil.Log

/-- The levels of events. -/
inductive Level where
  | debug | info | warning | error | critical
  deriving DecidableEq, Repr

namespace Level

/-- The levels from the least to the most urgent. -/
def all : List Level := [.debug, .info, .warning, .error, .critical]

/-- The rank of a level. -/
def rank : Level → Nat
  | .debug => 10
  | .info => 20
  | .warning => 30
  | .error => 40
  | .critical => 50

/-- The name of a level. -/
def name : Level → Text
  | .debug => "debug"
  | .info => "info"
  | .warning => "warning"
  | .error => "error"
  | .critical => "critical"

/-- Further names of levels. -/
def otherNames : List (Text × Level) :=
  [("warn", .warning), ("fatal", .critical), ("exception", .error)]

/-- The level of a name. -/
def ofName? (name : Text) : Option Level :=
  (all.find? fun l => l.name = name).or (otherNames.lookup name)

end Level

/-- Whether the library shows everything, or warnings and worse. -/
structure Verbosity where
  verbose : Bool
  deriving DecidableEq, Repr

namespace Verbosity

/-- The logger above all those of the library. -/
def libraryLogger : Text := "docweave"

/-- Whether a logger is another one or below it. -/
def isBelow (upper logger : Text) : Bool :=
  upper = logger || Text.startsWith (upper ++ ".") logger

/-- The least level that is shown of a logger. -/
def threshold (v : Verbosity) (logger : Text) : Level :=
  if v.verbose && isBelow libraryLogger logger then .debug else .warning

end Verbosity

/-- An event. Null is nothing said. -/
structure Event where
  logger : Text
  level : Level
  content : Value
  fields : List (Text × Value)
  deriving Repr

namespace Event

/-- The logger at the top, which is meant where no name is given. -/
def topLogger : Text := "root"

/-- Names that an event has in any case, or that speak of its handling; no
field has them. -/
def ownNames : List Text :=
  ["timestamp", "level", "event", "logger", "stack_info", "_record", "_from_structlog"]

/-- What is wrong with the named arguments of a call. -/
def misuse? (method : Text) (fields : List (Text × Value)) : Option Fault :=
  match fields.find? fun f => f.1 = ("event" : Text) || f.1 = ("self" : Text) with
  | some f => some (.givenTwice ("BoundLogger." ++ method) f.1)
  | none =>
    match fields.lookup ("method_name" : Text), fields.lookup ("_record" : Text) with
    | some _, _ => some (.givenTwice "BoundLogger._proxy_to_logger" "method_name")
    | none, some .null | none, none => none
    | none, some v => some (.nameless v.kind)

/-- The event of a call, whose method is named for the level. The method for
exceptions notes that there may be one. -/
def ofCall (logger method : Text) (content : Value) (fields : List (Text × Value)) :
    Except Failure Event := do
  if let some fault := misuse? method fields then Fault.throw fault
  let noted :=
    if method = ("exception" : Text) then Named.ofList ((("exc_info" : Text), .bool true) :: fields)
    else fields
  return ⟨logger, (Level.ofName? method).getD .info, content,
    noted.filter fun f => !ownNames.contains f.1⟩

/-- Whether an event is shown. -/
def isShown (v : Verbosity) (e : Event) : Bool := (v.threshold e.logger).rank ≤ e.level.rank

/-- The name of an event's logger. -/
def loggerName (e : Event) : Text := if e.logger.isEmpty then topLogger else e.logger

/-- An event as a table. -/
def record (e : Event) : List (Value × Value) :=
  let said : List (Text × Value) :=
    match e.content with
    | .null => []
    | v => [("event", v)]
  let told : List (Text × Value) :=
    [("level", .str e.level.name), ("logger", .str e.loggerName)]
  (said ++ told ++ e.fields).map fun f => (.str f.1, f.2)

end Event

end Stencil.Log
