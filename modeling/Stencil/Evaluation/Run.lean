import Stencil.Library.Context
import Stencil.Schema.Basic
import Stencil.Settings.LoaderConfig
import Stencil.Trace.Span
import Stencil.Values.Ledger

/-!
# Running an evaluation

Parsing, templates, merging and the pipelines for values and overlays are
the work of collaborators. A collaborator acts on a world of its own and
either answers or fails. The library drives them and keeps three things
besides: which files are decided to be output, the trace of phases, and
the world that the collaborators share.

An engine tells, with each answer, which library values the file consumed;
the record of use is kept by the library.

## Main definitions

* `Action` — what a collaborator does to its world.
* `Engine`, `Collaborators` — the operations that are not part of the
  library.
* `Session`, `Run` — the state of an evaluation, and computations on it.
* `Loader` — a library with the options and collaborators to evaluate it.
-/

namespace Stencil

/-- What a collaborator does to its world. -/
abbrev Action (σ α : Type) := ExceptT Failure (StateM σ) α

/-- The names that a file makes available, in the order of their
definition. -/
abbrev Symbols := List (Text × Value)

/-- An engine's answer for a file: what the file renders to, the names it
defines, and the library values it consumed. -/
structure Evaluated (α : Type) where
  symbols : Symbols
  consumed : List DataValues
  content : α

/-- An engine evaluates the files of one library. -/
structure Engine (σ : Type) where
  yaml : Context → File → Action σ (Evaluated (List Document))
  text : Context → File → Action σ (Evaluated Text)
  script : Context → File → Action σ (Evaluated Unit)

/-- What an engine is made with. -/
structure Seed where
  values : DataValues
  libraryValues : List DataValues
  librarySchemas : List DocumentSchema

/-- Documents of files, in the order in which the files were evaluated. -/
abbrev DocumentSets := List (Located × List Document)

/-- The operations that are not part of the library. -/
structure Collaborators (σ : Type) where
  /-- The documents of a YAML file, without evaluating expressions. -/
  parse : File → Action σ (List Document)
  /-- A new engine. -/
  newEngine : Seed → Action σ (Engine σ)
  /-- A document patched by another. -/
  merge : Document → Document → Action σ Document
  /-- The merged data values of some files and overlays under a schema, and
  the values addressed to nested libraries. -/
  resolveValues : List Located → List DataValues → Schema → ValuesPolicy →
    Action σ (DataValues × List DataValues)
  /-- Document sets with overlay documents applied across them. -/
  postProcess : DocumentSets → Action σ DocumentSets

/-- The state of an evaluation. -/
structure Session (σ : Type) where
  marks : Marks
  trace : Trace Nat
  world : σ

/-- Computations on the state of an evaluation. -/
abbrev Run (σ α : Type) := ExceptT Failure (StateM (Session σ)) α

namespace Run

variable {σ α : Type}

/-- The answer of a run and the state it leaves. -/
def apply (r : Run σ α) (s : Session σ) : Except Failure α × Session σ := r.run.run s

/-- The run that a function on states describes. -/
def ofFunction (f : Session σ → Except Failure α × Session σ) : Run σ α := ExceptT.mk f

/-- A computation without a state. -/
def ofExcept (e : Except Failure α) : Run σ α := ofFunction fun s => (e, s)

/-- What a collaborator does to its world. -/
def perform (a : Action σ α) : Run σ α :=
  ofFunction fun s =>
    let (r, world) := a.run.run s.world
    (r, { s with world := world })

/-- A run whose faults become errors. -/
def wrap (describe : Text → Error) (r : Run σ α) : Run σ α :=
  ofFunction fun s =>
    let (a, s) := r.apply s
    (wrapFault describe a, s)

/-- The answer of a run as a value, failures that are errors included. -/
def attempt (r : Run σ α) : Run σ (Except Error α) :=
  ofFunction fun s =>
    match r.apply s with
    | (.ok a, s) => (.ok (.ok a), s)
    | (.error (.error e _), s) => (.ok (.error e), s)
    | (.error (.fault f), s) => (.error (.fault f), s)

/-- The decisions on output that have been made. -/
def marks : Run σ Marks := do return (← get).marks

/-- Takes a file out of the output. -/
def claim (f : File) : Run σ Unit := modify fun s => { s with marks := s.marks.set f (some false) }

/-- The trace of a session and the session with another trace. -/
def withTrace (t : Trace Nat) (s : Session σ) : Session σ := { s with trace := t }

/-- A run inside a span. -/
def inSpan (name : Text) (r : Run σ α) : Run σ α :=
  ofFunction (spanning Session.trace withTrace name r.apply)

/-- Annotates the current span with a count. -/
def annotate (key : Text) (n : Nat) : Run σ Unit :=
  modify fun s => { s with trace := s.trace.annotate key n }

/-- A run that is an operation of its own, with its span attached to an
answer. -/
def traced (name : Text) (attach : Span Nat → α → α) (r : Run σ α) : Run σ α :=
  ofFunction (tracing Session.trace withTrace name (fun span => Except.map (attach span)) r.apply)

end Run

/-- A library at hand, with the options and collaborators to evaluate it. -/
structure Loader (σ : Type) where
  context : Context
  config : LoaderConfig
  collaborators : Collaborators σ

namespace Loader

variable {σ : Type}

/-- The library at hand. -/
def library (l : Loader σ) : Library := l.context.current

/-- The same loader with another library at hand. -/
def forLibrary (l : Loader σ) (lib : Library) : Loader σ :=
  { l with context := l.context.withCurrent lib }

end Loader

end Stencil
