import Stencil.Settings.Environment

/-!
# Settings of a run

The settings of a run come from four sources: what the caller gives, the
environment, a configuration file, and defaults. An option has the value of
the first source that mentions it. Sections are merged option by option, so
that a source which sets one of them leaves the others to those behind it.

## Main definitions

* `Settings` — the settings of a run.
* `Settings.ofEntries` — settings from a table, or all its breaches.
* `Settings.fileSource` — what a configuration file says, in the names of
  the settings.
* `Settings.layered` — what three sources say together.
* `Settings.load` — settings from all sources.
-/

namespace Stencil

/-- The settings of a run. The path is that of the configuration file. -/
structure Settings where
  configPath : Option Text
  verbose : Bool
  logJson : Bool
  loader : LoaderConfig
  deriving DecidableEq, Repr

namespace Settings

/-- The names of the settings. -/
def names : List Text := ["config_path", "verbose", "log_json", "loader"]

/-- A name of a table that is that of a setting, or a breach. -/
def knownName (key : Value) : Checked Unit :=
  match key with
  | .str name => if names.contains name then .ok () else .error [⟨.known, [name]⟩]
  | k => .error [⟨.known, [k.display]⟩]

/-- Every name of a table has to be that of a setting. -/
def knownNames : List (Value × Value) → Checked Unit
  | [] => .ok ()
  | e :: es => (Checked.apply (.ok fun _ _ => ()) (knownName e.1)).apply (knownNames es)

/-- The settings of a table, for a run with a configuration file. -/
def ofEntries (configPath : Option Text) (es : List (Value × Value)) : Checked Settings :=
  let make (verbose logJson : Bool) (loader : LoaderConfig) (_ : Unit) : Settings :=
    ⟨configPath, verbose, logJson, loader⟩
  (((Checked.apply (.ok make) (switchField false "verbose" es)).apply
      (switchField false "log_json" es)).apply
      (Checked.field LoaderConfig.ofValue {} "loader" es)).apply
      (knownNames es)

/-! ## The configuration file as a source -/

/-- What stands under a name in the section on logging. A text or a list
has no names, yet a name can occur in it. -/
def lookIn (name : Text) : Value → Except LoadFailure (Option Value)
  | .map es => .ok (Keyed.find? (.str name) es)
  | .str t => if Text.occurs name t then .error (.noTable .string true) else .ok none
  | .list vs =>
    if vs.any (·.same (.str name)) then .error (.noTable .array true) else .ok none
  | v => .error (.noTable v.kind false)

/-- Entries in which a value that was found stands under a name. -/
def putSome (name : Text) (v : Option Value) (es : List (Value × Value)) : List (Value × Value) :=
  match v with
  | some v => Keyed.insert (.str name) v es
  | none => es

/-- What a configuration file says, in the names of the settings: the
section on logging gives two of them. -/
def fileSource (es : List (Value × Value)) : Except LoadFailure (List (Value × Value)) :=
  let others := es.filter fun e => !e.1.same (.str "logging")
  match Keyed.find? (.str "logging") es with
  | none => .ok others
  | some v => do
    let verbose ← lookIn "verbose" v
    let json ← lookIn "json" v
    return putSome "log_json" json (putSome "verbose" verbose others)

/-- What a configuration file says of one setting; nothing if there is no
such file. -/
def fieldOfFile (t : FileTree) (file : Route) (name : Text) :
    Except LoadFailure (Option Value) := do
  if !(← t.hasFile file) then return none
  let es ← fileSource (← t.readToml file)
  return Keyed.find? (.str name) es

/-! ## All sources -/

/-- What three sources say together, the most important one first. -/
def layered (given ambient written : List (Value × Value)) : List (Value × Value) :=
  Value.mergeEntriesOver (Value.mergeEntriesOver given ambient) written

/-- The configuration file to use: one that the caller names counts alone,
if it is there; otherwise it is searched for. -/
def chooseFile (t : FileTree) (env : Environment) (named start : Option Text) :
    Except LoadFailure (Option Route) :=
  match named with
  | some path => t.namedConfig path
  | none => t.findConfig (env.lookup Environment.configVariable) start

/-- The arguments of the loading itself, which a caller cannot give among
the settings. -/
def ownArguments : List Text := ["config_path", "start", "cls"]

/-- What the caller gives, under the names of the settings that it stands
for, capitals not counting. Where several names stand for one setting the
first one counts, and the configuration file is settled before all. -/
def givenEntries (given : List (Text × Value)) : List (Value × Value) :=
  let named := given.map fun g => (Agreement.nameAmong names g.1, g.2)
  Keyed.ofList <| (named.filter fun g => g.1 ≠ ("config_path" : Text)).reverse.map fun g =>
    (.str g.1, g.2)

/-- Settings from all sources. A configuration file is checked as a whole
first, so that a bad value is reported with the file's name. -/
def load (t : FileTree) (env : Environment) (named start : Option Text)
    (given : List (Text × Value)) : Except LoadFailure Settings := do
  if let some name := ownArguments.find? fun name => given.any (·.1 = name) then
    throw (.repeated name)
  let file ← chooseFile t env named start
  let written ←
    match file with
    | none => pure []
    | some r =>
      let _ ← t.loadConfig r
      fileSource (← t.readToml r)
  let ambient ← (Agreement.ofCaller given).source env
  let given := givenEntries (given.filter fun g => !Agreement.directives.contains g.1)
  match ofEntries (file.map Route.text) (layered given ambient written) with
  | .ok s => .ok s
  | .error breaches => .error (.rejected breaches)

end Settings

end Stencil
