import Stencil.Failure
import Stencil.Settings.Config
import Stencil.Settings.FileTree
import Stencil.Toml.Reader

/-!
# Finding and loading a configuration

A configuration lies in a file of a fixed name. Unless the environment
names the file, it is the one in the nearest directory, going upwards from
where the search starts. Without a file every option has its default.

## Main definitions

* `FileTree.findConfig` — the file to use.
* `FileTree.readToml` — the table that a file writes.
* `FileTree.loadConfig` — the configuration, checked as a whole.
* `LoadFailure` — what can go wrong while loading, with its message.
-/

namespace Stencil

/-! ## Failures -/

/-- What can go wrong while a configuration is loaded. -/
inductive LoadFailure where
  /-- A file cannot be read. -/
  | unreadable (path : Text) (obstacle : FileTree.Obstacle)
  /-- A directory to start from cannot be looked up, for what its name
  holds. -/
  | unsearchable (obstacle : Native.Obstacle)
  /-- A file is not a TOML document. -/
  | malformed (path : Text)
  /-- A file writes an integer with too many digits. -/
  | excessive (digits : Nat)
  /-- A file breaks rules. -/
  | invalid (path : Text) (breaches : List Breach)
  /-- The section on logging is no table, and a name was looked for in it
  in vain, or found in it but without a value. -/
  | noTable (kind : Value.Kind) (found : Bool)
  /-- A variable of the environment does not hold a JSON text. -/
  | undecodable (field : Text)
  /-- The caller gives an argument of the loading itself once more. -/
  | repeated (argument : Text)
  /-- The sources together break rules. -/
  | rejected (breaches : List Breach)
  deriving Repr

namespace LoadFailure

/-- The beginning of the message on a file that is not a TOML document. -/
def malformedHeading (path : Text) : Text := "Invalid TOML in " ++ path ++ ": "

/-- A failure in words. -/
def message : LoadFailure → Text
  | .unreadable path .missing => "[Errno 2] No such file or directory: " ++ path.quoted
  | .unreadable path .directory => "[Errno 21] Is a directory: " ++ path.quoted
  | .unreadable path .throughFile => "[Errno 20] Not a directory: " ++ path.quoted
  | .unreadable path .tooLong => "[Errno 36] File name too long: " ++ path.quoted
  | .unreadable _ (.unnamed obstacle) | .unsearchable obstacle => obstacle.message
  | .malformed path => malformedHeading path ++ "not a TOML document"
  | .excessive digits =>
    "Exceeds the limit (" ++ Text.ofNat Toml.mostDigits ++
      " digits) for integer string conversion: value has " ++ Text.ofNat digits ++
      " digits; use sys.set_int_max_str_digits() to increase the limit"
  | .invalid path breaches =>
    "Invalid configuration in " ++ path ++ ": " ++ Text.ofNat breaches.length ++ " error(s)"
  | .noTable .string true => "string indices must be integers, not 'str'"
  | .noTable .array true => "list indices must be integers or slices, not str"
  | .noTable .date _ => "argument of type 'datetime.date' is not iterable"
  | .noTable kind _ => "argument of type " ++ kind.typeName.quoted ++ " is not iterable"
  | .undecodable field =>
    "error parsing value for field \"" ++ field ++ "\" from source \"EnvSettingsSource\""
  | .repeated argument =>
    if argument = ("cls" : Text) then "DocweaveSettings.load() got multiple values for argument 'cls'"
    else
      "docweave.config.settings.DocweaveSettings.load() got multiple values for keyword argument " ++
        argument.quoted
  | .rejected breaches => Text.ofNat breaches.length ++ " validation error(s)"

/-- The failure as an error of the library, if it is about the content of a
file. -/
def toError? (f : LoadFailure) : Option Error :=
  match f with
  | .malformed path => some (.reported .config f.message [("path", .str path)])
  | .invalid path breaches =>
    some (.reported .config f.message
      [("path", .str path), ("errors", .list (breaches.map Breach.toValue))])
  | _ => none

end LoadFailure

/-! ## Finding and reading -/

namespace FileTree

/-- The name of a configuration file. -/
def configName : Text := "docweave.toml"

/-- Whether a path leads to a file. -/
def hasFile (t : FileTree) (r : Route) : Except LoadFailure Bool :=
  (t.leadsToFile r).mapError (.unreadable r.text)

/-- The first directory of some that has a configuration file. -/
def firstConfig (t : FileTree) : List Place → Except LoadFailure (Option Route)
  | [] => .ok none
  | directory :: others => do
    let file := Route.ofPlace (directory ++ [configName])
    if ← t.hasFile file then return some file else firstConfig t others

/-- The configuration file that a path names, if it is there. -/
def namedConfig (t : FileTree) (path : Text) : Except LoadFailure (Option Route) := do
  let file := Route.ofText path
  return if ← t.hasFile file then some file else none

/-- The path at which a search starts: the one that is given, or that of the working
directory. -/
def startOf (t : FileTree) (start : Option Text) : Route :=
  (start.map Route.ofText).getD (.ofPlace t.workingDirectory)

/-- The configuration file to use. One that the environment names counts
alone, whether it exists or not; otherwise it is the nearest one, going
upwards from a directory. -/
def findConfig (t : FileTree) (named start : Option Text) : Except LoadFailure (Option Route) :=
  match named with
  | some (c :: path) => t.namedConfig (c :: path)
  | _ => do
    let directory ← (t.resolve (t.startOf start)).mapError .unsearchable
    t.firstConfig directory.ancestors

/-- The table that a file writes. -/
def readToml (t : FileTree) (file : Route) : Except LoadFailure (List (Value × Value)) :=
  match t.read file with
  | .error obstacle => .error (.unreadable file.text obstacle)
  | .ok content =>
    match Toml.read content with
    | .error .malformed => .error (.malformed file.text)
    | .error (.excessive digits) => .error (.excessive digits)
    | .ok es => .ok es

/-- The configuration of a file. -/
def loadConfig (t : FileTree) (file : Route) : Except LoadFailure Config := do
  let es ← t.readToml file
  match Config.ofEntries es with
  | .ok c => .ok c
  | .error breaches => .error (.invalid file.text breaches)

/-- The configuration of a file that may be missing from the start, which
means defaults. -/
def loadConfig? (t : FileTree) (file : Option Route) : Except LoadFailure Config :=
  match file with
  | none => .ok {}
  | some p => t.loadConfig p

end FileTree

end Stencil
