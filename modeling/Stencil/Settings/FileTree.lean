import Stencil.Settings.Route

/-!
# A view of the file system

Finding a configuration needs to know which files there are and what they say,
and in which directory relative paths are read. What a file says is seen with
line feeds as the only line ends.

The system looks up one name after another, and it can look up neither names
nor paths that are too long. Links between places are not part of the view, nor
is what the system allows whom to look up.

## Main definitions

* `FileTree` — the files and directories that there are.
* `FileTree.visit` — where a path leads, or what stands in its way.
* `FileTree.read` — what a file says.
* `FileTree.resolve` — the place of a path, whether or not it is there.
-/

namespace Stencil

/-- A text whose lines all end with a line feed: a carriage return before
one is left out, and any other stands for one. -/
def Text.withLineFeeds : Text → Text
  | [] => []
  | c :: t =>
    if c ≠ '\r' then c :: withLineFeeds t
    else if t.head? = some ('\n' : CodePoint) then withLineFeeds t
    else ('\n' : CodePoint) :: withLineFeeds t

/-- The files of a system with their content, and its directories. Relative paths
are read in the working directory. -/
structure FileTree where
  workingDirectory : Place
  directories : List Place
  files : List (Place × Text)

namespace FileTree

/-- What can stand in the way of reading a file. -/
inductive Obstacle where
  | missing | directory | throughFile
  /-- A name or a path has more bytes than it can have. -/
  | tooLong
  /-- A path cannot be handed to the system. -/
  | unnamed (obstacle : Native.Obstacle)
  deriving DecidableEq, Repr

/-- Where a path starts. -/
def base (t : FileTree) (r : Route) : Place :=
  match r.anchor with
  | .relative => t.workingDirectory
  | .top | .doubled => []

/-- Whether there is a file at a place. -/
def isFile (t : FileTree) (p : Place) : Bool := (t.files.lookup p).isSome

/-- Whether there is a directory at a place: the working directory, one that is
listed, or one above something that is there. -/
def isDirectory (t : FileTree) (p : Place) : Bool :=
  p.isPrefixOf t.workingDirectory || t.directories.any p.isPrefixOf ||
    t.files.any fun f => p.isPrefixOf f.1 && p.length < f.1.length

/-- The bytes that a name can have. -/
def nameBytes : Nat := 255

/-- The bytes that a path can have. -/
def pathBytes : Nat := 4095

/-- Whether a name has more bytes than a name can have. -/
def isTooLong (name : Text) : Bool := nameBytes < Native.size name

/-- Where some names lead, starting from a place and taking one name at a time. -/
def visit (t : FileTree) : Place → List Text → Except Obstacle Place
  | here, [] => .ok here
  | here, name :: names =>
    if t.isDirectory here then
      if isTooLong name then .error .tooLong else t.visit (here.step name) names
    else .error (if t.isFile here then .throughFile else .missing)

/-- What the file says that a path leads to. -/
def read (t : FileTree) (r : Route) : Except Obstacle Text :=
  match Native.obstacle? r.text with
  | some obstacle => .error (.unnamed obstacle)
  | none =>
    if pathBytes < Native.size r.text then .error .tooLong
    else do
      let p ← t.visit (t.base r) r.names
      match t.files.lookup p with
      | some content => .ok content.withLineFeeds
      | none => .error (if t.isDirectory p then .directory else .missing)

/-- Whether a path leads to a file. That cannot be told of what is too long to be
looked up. -/
def leadsToFile (t : FileTree) (r : Route) : Except Obstacle Bool :=
  match t.read r with
  | .ok _ => .ok true
  | .error .tooLong => .error .tooLong
  | .error _ => .ok false

/-- The place of a path when all steps up are taken. -/
def resolve (t : FileTree) (r : Route) : Except Native.Obstacle Place :=
  Route.resolveFrom ⟨r.anchor.settled, []⟩ (t.base r) r.names

end FileTree

end Stencil
