/-!
# Options of a loader

How schemas, data values and templates are loaded is set by four switches.

## Main definitions

* `LoaderConfig` — the switches.
* `ValuesPolicy` — those that the pipeline for data values is told.
-/

namespace Stencil

/-- What the pipeline for data values is told about documents that need
care. -/
structure ValuesPolicy where
  ignoreUnknownComments : Bool
  implicitMapKeyOverrides : Bool
  deriving DecidableEq, Repr

/-- The switches of a loader. -/
structure LoaderConfig where
  schemaEnabled : Bool := true
  ignoreUnknownComments : Bool := false
  implicitMapKeyOverrides : Bool := false
  strictYaml : Bool := false
  deriving DecidableEq, Repr, Inhabited

/-- The part of the switches that the pipeline for data values is told. -/
def LoaderConfig.valuesPolicy (c : LoaderConfig) : ValuesPolicy :=
  ⟨c.ignoreUnknownComments, c.implicitMapKeyOverrides⟩

end Stencil
