import Stencil.Settings.LoaderConfig
import Stencil.Settings.Truth

/-!
# Configuration files

A configuration has a section for the loader and one for logging. Whatever
a file leaves out has its default, and whatever it says beyond that does
not count here.

## Main definitions

* `LoaderConfig.ofValue`, `LoggingConfig.ofValue` — the sections.
* `Config.ofValue` — a configuration, or all its breaches.
* `Config.toValue` — the configuration as a value, which reads back.
-/

namespace Stencil

/-- The section on logging. -/
structure LoggingConfig where
  verbose : Bool := false
  json : Bool := false
  deriving DecidableEq, Repr

/-- A configuration. -/
structure Config where
  loader : LoaderConfig := {}
  logging : LoggingConfig := {}
  deriving DecidableEq, Repr

/-- A switch of a section, with its default. -/
def switchField (default : Bool) (name : Text) (es : List (Value × Value)) : Checked Bool :=
  Checked.field Value.toTruth default name es

namespace LoaderConfig

/-- The names of the switches. -/
def names : List Text :=
  ["schema_enabled", "ignore_unknown_comments", "implicit_map_key_overrides", "strict_yaml"]

/-- The section of a table. -/
def ofEntries (es : List (Value × Value)) : Checked LoaderConfig :=
  (((Checked.apply (.ok LoaderConfig.mk) (switchField true "schema_enabled" es)).apply
      (switchField false "ignore_unknown_comments" es)).apply
      (switchField false "implicit_map_key_overrides" es)).apply
      (switchField false "strict_yaml" es)

/-- The section that a value stands for. -/
def ofValue (v : Value) : Checked LoaderConfig := Checked.table v >>= ofEntries

/-- A section as a value. -/
def toValue (c : LoaderConfig) : Value :=
  .map [(.str "schema_enabled", .bool c.schemaEnabled),
    (.str "ignore_unknown_comments", .bool c.ignoreUnknownComments),
    (.str "implicit_map_key_overrides", .bool c.implicitMapKeyOverrides),
    (.str "strict_yaml", .bool c.strictYaml)]

end LoaderConfig

namespace LoggingConfig

/-- The section that a value stands for. -/
def ofValue (v : Value) : Checked LoggingConfig := do
  let es ← Checked.table v
  (Checked.apply (.ok LoggingConfig.mk) (switchField false "verbose" es)).apply
    (switchField false "json" es)

/-- A section as a value. -/
def toValue (c : LoggingConfig) : Value :=
  .map [(.str "verbose", .bool c.verbose), (.str "json", .bool c.json)]

end LoggingConfig

namespace Config

/-- The configuration of a table. -/
def ofEntries (es : List (Value × Value)) : Checked Config :=
  (Checked.apply (.ok Config.mk) (Checked.field LoaderConfig.ofValue {} "loader" es)).apply
    (Checked.field LoggingConfig.ofValue {} "logging" es)

/-- The configuration that a value stands for. -/
def ofValue (v : Value) : Checked Config := Checked.table v >>= ofEntries

/-- A configuration as a value. -/
def toValue (c : Config) : Value :=
  .map [(.str "loader", c.loader.toValue), (.str "logging", c.logging.toValue)]

end Config

end Stencil
