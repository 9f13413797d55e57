import Stencil.Settings.Discovery
import Stencil.Text.Named
import Stencil.Value.Json
import Stencil.Value.Merge

/-!
# Settings in the environment

Variables of the environment can set every option. Their names begin with a
common prefix, capitals do not count in them, and two underscores lead into
a section. A section can also be given as a whole, as a JSON text; what
single variables say of it comes on top.

All of this is a matter of agreement, and a caller may agree on something
else: another prefix, another sign between the parts of a name, names in
which capitals count, values that are passed over when they are empty, or a
text that stands for null.

## Main definitions

* `Environment` — the variables with their values.
* `Agreement`, `Agreement.ofCaller` — how variables are read, and what a
  caller says of it.
* `Agreement.nested` — what single variables say of a section.
* `Agreement.source` — everything that the environment says, as a table.
-/

namespace Stencil

/-- The variables of the environment. -/
abbrev Environment := List (Text × Text)

/-- The variable that names a configuration file. -/
def Environment.configVariable : Text := "DOCWEAVE_CONFIG"

/-- How variables are read. Names are cut at the delimiter, no more often
than a given number if there is one. -/
structure Agreement where
  beginning : Text := "DOCWEAVE_"
  delimiter : Text := "__"
  cuts : Option Nat := none
  capitalsCount : Bool := false
  skipsEmpty : Bool := false
  nullText : Option Text := none
  deriving DecidableEq, Repr

namespace Agreement

/-! ## What a caller says -/

/-- Names under which a caller speaks of how settings are put together. Most
of them make no difference for the sources that there are. -/
def directives : List Text :=
  ["_case_sensitive", "_nested_model_default_partial_update", "_env_prefix",
    "_env_prefix_target", "_env_file", "_env_file_encoding", "_env_ignore_empty",
    "_env_nested_delimiter", "_env_nested_max_split", "_env_parse_none_str", "_env_parse_enums",
    "_cli_prog_name", "_cli_parse_args", "_cli_settings_source", "_cli_parse_none_str",
    "_cli_hide_none_type", "_cli_avoid_json", "_cli_enforce_required",
    "_cli_use_class_docs_for_groups", "_cli_exit_on_error", "_cli_prefix",
    "_cli_flag_prefix_char", "_cli_implicit_flags", "_cli_ignore_unknown_args",
    "_cli_kebab_case", "_cli_shortcuts", "_secrets_dir", "_build_sources"]

/-- A text that a caller gives, if it is one. -/
def textOf : Option Value → Option Text
  | some (.str t) => some t
  | _ => none

/-- How often a name may be cut, if a caller gives the number of its parts;
no parts, or fewer, are no limit. -/
def cutsOf : Option Value → Option Nat
  | some (.int n) => if 0 < n then some (n.toNat - 1) else none
  | some (.bool true) => some 0
  | _ => none

/-- The agreement that a caller wishes; null and what is left out is as
usual. -/
def ofCaller (given : List (Text × Value)) : Agreement :=
  let usual : Agreement := {}
  let said (name : Text) : Option Value := given.lookup name
  { beginning := (textOf (said "_env_prefix")).getD usual.beginning
    delimiter := (textOf (said "_env_nested_delimiter")).getD usual.delimiter
    cuts := cutsOf (said "_env_nested_max_split")
    capitalsCount := ((said "_case_sensitive").map Value.isSomething).getD usual.capitalsCount
    skipsEmpty := ((said "_env_ignore_empty").map Value.isSomething).getD usual.skipsEmpty
    nullText := textOf (said "_env_parse_none_str") }

/-! ## Variables -/

/-- A name as it is compared. -/
def nameOf (a : Agreement) (name : Text) : Text := if a.capitalsCount then name else name.toLower

/-- The variables that count, by the names that are compared; of two that
agree then, the later one counts. -/
def bindings (a : Agreement) (env : Environment) : List (Text × Value) :=
  Named.ofList <| (env.filter fun v => !(a.skipsEmpty && v.2.isEmpty)).map fun v =>
    (a.nameOf v.1, if some v.2 = a.nullText then .null else .str v.2)

/-- Whether a value gives way to what is already there: null does, unless
that is an empty table. -/
def givesWay (v : Value) (there : Option Value) : Bool :=
  match v, there with
  | .null, some (.map es) => !es.isEmpty
  | .null, some _ => true
  | _, _ => false

/-- Writes a value under a dotted name; a value that is already on the way
stays. -/
def putUnder (v : Value) : List Text → List (Value × Value) → List (Value × Value)
  | [], es => es
  | [name], es =>
    if givesWay v (Keyed.find? (.str name) es) then es else Keyed.insert (.str name) v es
  | name :: path, es =>
    match Keyed.find? (.str name) es with
    | none => Keyed.insert (.str name) (.map (putUnder v path [])) es
    | some (.map fs) => Keyed.insert (.str name) (.map (putUnder v path fs)) es
    | some _ => es

/-- What single variables say of a section. Without a delimiter there are no
nested names. -/
def nested (a : Agreement) (name : Text) (bindings : List (Text × Value)) :
    List (Value × Value) :=
  let beginning := a.nameOf (a.beginning ++ name) ++ a.delimiter
  if a.delimiter.isEmpty then []
  else
    bindings.foldl (fun es v =>
      if Text.startsWith beginning v.1 then
        putUnder v.2 (Text.splitAround a.delimiter a.cuts 0 (v.1.drop beginning.length)) es
      else es) []

/-- The name among `names` that a name stands for, capitals not counting. -/
def nameAmong (names : List Text) (name : Text) : Text :=
  (names.find? fun n => n.toLower = name.toLower).getD name

/-- Entries under the names that they stand for. -/
def withNamesAmong (names : List Text) (es : List (Value × Value)) : List (Value × Value) :=
  Keyed.ofList <| es.map fun e =>
    match e.1 with
    | .str name => (.str (nameAmong names name), e.2)
    | k => (k, e.2)

/-- What the environment says of the loader. -/
def loader (a : Agreement) (bindings : List (Text × Value)) :
    Except LoadFailure (Option Value) :=
  let single := a.nested "loader" bindings
  let named (es : List (Value × Value)) : Value :=
    .map (if a.capitalsCount then es else withNamesAmong LoaderConfig.names es)
  match bindings.lookup (a.nameOf (a.beginning ++ "loader")) with
  | none => .ok (if single.isEmpty then none else some (named single))
  | some (.str text) =>
    match Value.ofJson? text with
    | none => .error (.undecodable "loader")
    | some .null => .ok none
    | some (.map es) => .ok (some (named (Value.mergeEntriesOver single es)))
    | some v => .ok (some v)
  | some v => .ok (some v)

/-- What the environment says of a single option. -/
def option (a : Agreement) (name : Text) (bindings : List (Text × Value)) :
    List (Value × Value) :=
  match bindings.lookup (a.nameOf (a.beginning ++ name)) with
  | none => []
  | some v => [(.str name, v)]

/-- Everything that the environment says. -/
def source (a : Agreement) (env : Environment) : Except LoadFailure (List (Value × Value)) := do
  let vs := a.bindings env
  let loader := (← a.loader vs).toList.map fun v => (Value.str "loader", v)
  return a.option "config_path" vs ++ a.option "verbose" vs ++ a.option "log_json" vs ++ loader

end Agreement

end Stencil
