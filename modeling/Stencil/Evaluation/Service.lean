import Stencil.Evaluation.Files
import Stencil.Evaluation.Schemas
import Stencil.Evaluation.Values

/-!
# The operations of a loader

A library is evaluated in three operations, each of which feeds the next:
its schemas, its data values, and its files. A fourth does all three and
stops at the first failure. An operation answers with a result in which an
error of the library stands as a value; only a fault that no wrapper
catches ends it otherwise. When an operation is traced, its spans are part
of its result.

## Main definitions

* `ServiceResult` — the answer of an operation.
* `Loader.schemas`, `Loader.values`, `Loader.eval` — the three operations.
* `Evaluation`, `Loader.evaluate` — all of them.
-/

namespace Stencil

/-- The answer of an operation: its outcome, what is worth noting besides,
and its spans if it was traced. -/
structure ServiceResult (α : Type) where
  op : Text
  outcome : Except Error α
  warnings : List Text
  telemetry : Option (Span Nat)

namespace ServiceResult

variable {α β : Type}

/-- Whether an operation succeeded. -/
def isOk (r : ServiceResult α) : Bool :=
  match r.outcome with
  | .ok _ => true
  | .error _ => false

/-- An answer without spans. -/
def of (op : Text) (outcome : Except Error α) (warnings : List Text) : ServiceResult α :=
  ⟨op, outcome, warnings, none⟩

/-- An answer with the spans of its operation. -/
def attach (span : Span Nat) (r : ServiceResult α) : ServiceResult α :=
  { r with telemetry := some span }

end ServiceResult

/-- What a complete evaluation yields. -/
structure Evaluation where
  schema : Schema
  values : DataValues
  result : EvalResult

namespace Loader

variable {σ : Type}

/-- Collects the schema of the library at hand and those for nested
libraries. -/
def schemas (l : Loader σ) (overlays : List DocumentSchema) :
    Run σ (ServiceResult CollectedSchemas) :=
  Run.traced "LibraryLoader.schemas" ServiceResult.attach do
    match ← Run.attempt (l.collectSchemas overlays) with
    | .ok collected => return .of "schemas" (.ok collected) collected.warnings
    | .error e => return .of "schemas" (.error e) []

/-- Collects the data values of the library at hand and those for nested
libraries. -/
def values (l : Loader σ) (overlays : List DataValues) (schema : Schema) :
    Run σ (ServiceResult CollectedValues) :=
  Run.traced "LibraryLoader.values" ServiceResult.attach do
    return .of "values" (← Run.attempt (l.collectValues overlays schema)) []

/-- Evaluates the files of the library at hand. -/
def eval (l : Loader σ) (values : DataValues) (libraryValues : List DataValues)
    (librarySchemas : List DocumentSchema) : Run σ (ServiceResult EvalResult) :=
  Run.traced "LibraryLoader.eval" ServiceResult.attach do
    return .of "eval" (← Run.attempt (l.evaluateLibrary values libraryValues librarySchemas)) []

/-- The three operations one after another, up to the first that fails. The
warnings are those about schemas. -/
def phases (l : Loader σ) (schemaOverlays : List DocumentSchema)
    (valuesOverlays : List DataValues) : Run σ (ServiceResult Evaluation) := do
  let schemas ← l.schemas schemaOverlays
  let stop (e : Error) : ServiceResult Evaluation := .of "evaluate" (.error e) schemas.warnings
  match schemas.outcome with
  | .error e => return stop e
  | .ok collected =>
    let values ← l.values valuesOverlays collected.schema
    match values.outcome with
    | .error e => return stop e
    | .ok found =>
      let evaluated ← l.eval found.values found.libraryValues collected.librarySchemas
      match evaluated.outcome with
      | .error e => return stop e
      | .ok result =>
        return .of "evaluate" (.ok ⟨collected.schema, found.values, result⟩) schemas.warnings

/-- Schemas, data values and files in one operation. -/
def evaluate (l : Loader σ) (schemaOverlays : List DocumentSchema)
    (valuesOverlays : List DataValues) : Run σ (ServiceResult Evaluation) :=
  Run.traced "LibraryLoader.evaluate" ServiceResult.attach (l.phases schemaOverlays valuesOverlays)

end Loader

end Stencil
