import Stencil.Failure
import Stencil.Library.Path

/-!
# Files

A file of a library has a path, content and flags. The content is for the
collaborators; the library itself looks only at the path and the flags, and
tells files apart by their numbers. The extension gives the kind of the
content. Scripts, and files with `.lib.` in their names,
are libraries of symbols; other text and YAML files are output. Both can be
overridden for a file, and the decision on output can change while a
library is evaluated.

## Main definitions

* `FileKind` — the kinds of content.
* `File`, `File.ofPath` — files, and the file of a path.
* `File.isLibrary` — whether the file only provides symbols.
* `Marks`, `File.isForOutput` — decisions on output, and their effect.
-/

namespace Stencil

/-- The kinds of content of a file. -/
inductive FileKind where
  | yaml | text | script | unknown
  deriving DecidableEq, Repr

namespace FileKind

/-- The name of a kind. -/
def name : FileKind → Text
  | .yaml => "yaml"
  | .text => "text"
  | .script => "script"
  | .unknown => "unknown"

/-- The kinds in order. -/
def all : List FileKind := [.yaml, .text, .script, .unknown]

/-- The kind of a name. -/
def ofName (n : Text) : Except Failure FileKind :=
  match all.find? (·.name = n) with
  | some k => .ok k
  | none => Fault.throw (.unknownKind n)

/-- The extensions of the known kinds, in small letters. -/
def extensions : List (Text × FileKind) :=
  [(".yml", .yaml), (".yaml", .yaml), (".txt", .text), (".star", .script)]

/-- The kind of an extension in letters of either case. -/
def ofSuffix (suffix : Text) : FileKind :=
  (extensions.lookup suffix.toLower).getD .unknown

end FileKind

/-- A file of a library. The number `id` tells it from other files, also from
one that is like it in everything else. `library` overrides whether it only
provides symbols, and `output` is the first decision on its output. -/
structure File where
  id : Nat
  path : Text
  data : List UInt8
  kind : FileKind
  template : Bool
  library : Option Bool
  output : Option Bool
  deriving DecidableEq, Repr

namespace File

/-- The file of a path, of the kind that its extension tells. -/
def ofPath (id : Nat) (path : Text) (data : List UInt8) (template : Bool) : File :=
  ⟨id, path, data, FileKind.ofSuffix (Path.suffix (Path.name path)), template, none, none⟩

/-- The last component of a file's path. -/
def name (f : File) : Text := Path.name f.path

/-- Whether a file only provides symbols. -/
def isLibrary (f : File) : Bool :=
  f.library.getD (f.kind = .script || Text.occurs ".lib." f.name)

/-- Whether a file is rendered when a decision about it has been made, or
none has. -/
def isRendered (f : File) (decision : Option Bool) : Bool :=
  decision.getD (!f.isLibrary && (f.kind = .yaml || f.kind = .text))

end File

/-- Decisions on output that were made about files, the latest first. Each
is `none` where an earlier decision was taken back. -/
abbrev Marks := List (Nat × Option Bool)

namespace Marks

/-- The decision that holds for a file. -/
def decision (m : Marks) (f : File) : Option Bool := (m.lookup f.id).getD f.output

/-- Marks with a further decision about a file. -/
def set (m : Marks) (f : File) (output : Option Bool) : Marks := (f.id, output) :: m

end Marks

/-- Whether a file is rendered under some marks. -/
def File.isForOutput (f : File) (m : Marks) : Bool := f.isRendered (m.decision f)

end Stencil
