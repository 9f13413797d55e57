import Stencil.Library.File
import Stencil.Text.Named

/-!
# Libraries

A library is a directory of files with the libraries of its
subdirectories. A tree grows from a list of files by placing one after
another: libraries come into being in the order in which their first file
is placed, and the files of one directory keep their order. A file that is
placed below a directory is a file of its own there, and one that is given
several times becomes as many files. Libraries named `_lib` are private: they
can be looked up, but their files are not among those that a library makes
accessible.

## Main definitions

* `Library` — a directory of files and libraries.
* `Library.apart` — files with numbers of their own.
* `Library.place`, `Library.ofFiles`, `Library.ofContents` — growing a tree.
* `Library.find` — the library at a path.
* `Located` — a file with the library that owns it.
* `Library.accessible` — the files a library makes accessible.
* `Library.all` — every file, private ones included.
-/

namespace Stencil

/-- A directory of files and libraries. The path leads from the root of the
tree, whose own path is empty. -/
structure Library where
  name : Text
  path : Text
  files : List File
  children : List Library
  deriving Repr

namespace Library

instance : Inhabited Library := ⟨⟨[], [], [], []⟩⟩

mutual
/-- Whether two libraries are the same tree. -/
def decEq : (a b : Library) → Decidable (a = b)
  | ⟨name, path, files, children⟩, ⟨name', path', files', children'⟩ =>
    if h : name = name' ∧ path = path' ∧ files = files' then
      match decEqAll children children' with
      | .isTrue hc => .isTrue (by simp [h, hc])
      | .isFalse hc => .isFalse (by simp [hc])
    else .isFalse fun he => h (by simp_all)

/-- Whether two lists of libraries are the same trees. -/
def decEqAll : (as bs : List Library) → Decidable (as = bs)
  | [], [] => .isTrue rfl
  | [], _ :: _ => .isFalse nofun
  | _ :: _, [] => .isFalse nofun
  | a :: as, b :: bs =>
    match decEq a b with
    | .isTrue h =>
      match decEqAll as bs with
      | .isTrue hs => .isTrue (by rw [h, hs])
      | .isFalse hs => .isFalse fun he => hs (List.cons.inj he).2
    | .isFalse h => .isFalse fun he => h (List.cons.inj he).1
end

instance : DecidableEq Library := decEq

/-- A library without files. -/
def empty (name path : Text) : Library := ⟨name, path, [], []⟩

/-- The name of private libraries. -/
def privateName : Text := "_lib"

/-- Whether the files of a library are kept from the libraries above. -/
def isPrivate (lib : Library) : Bool := lib.name = privateName

/-- The components of a library's path. -/
def pathParts (lib : Library) : List Text := Path.parts lib.path

/-! ## Growing a tree -/

/-- Libraries after a change to the first one of a name, or with a new one
at the end when there is none. -/
def changeNamed (name : Text) (change : Library → Library) (fresh : Library) :
    List Library → List Library
  | [] => [change fresh]
  | lib :: libs =>
    if lib.name = name then change lib :: libs
    else lib :: changeNamed name change fresh libs

/-- A library with a file placed below some directories. -/
def place (f : File) : List Text → Library → Library
  | [], lib => { lib with files := lib.files ++ [f] }
  | dir :: dirs, lib =>
    { lib with
      children := changeNamed dir (place f dirs) (empty dir (Path.join lib.path dir)) lib.children }

/-- A library with a file placed where its path says. The file keeps the
part of the path below its directory. -/
def placeByPath (lib : Library) (f : File) : Library :=
  let (dirs, file) := Path.splitFile f.path
  lib.place { f with path := file } dirs

/-- Whether a file goes below a directory. -/
def isBelow (f : File) : Bool := !(Path.splitFile f.path).1.isEmpty

/-- Files that come after some others and are given numbers from a free one on:
one that goes below a directory and has come before takes the next of them. -/
def apartFrom (seen : List File) (free : Nat) : List File → List File
  | [] => []
  | f :: files =>
    if isBelow f && seen.contains f then { f with id := free } :: apartFrom seen (free + 1) files
    else f :: apartFrom (f :: seen) free files

/-- A number that is free, and all numbers above it. -/
def freeId (files : List File) : Nat := files.foldr (fun f n => max (f.id + 1) n) 0

/-- Files with numbers of their own. A file that is given again stays one file
if it lies at the top, and is another one below a directory. -/
def apart (files : List File) : List File := apartFrom [] (freeId files) files

/-- The library of some files. -/
def ofFiles (files : List File) : Library := (apart files).foldl placeByPath (empty [] [])

/-- The library of some contents by path; a path that comes twice keeps its
first place and takes its last content. -/
def ofContents (contents : List (Text × List UInt8)) : Library :=
  ofFiles <| (Named.ofList contents).zipIdx.map fun c => File.ofPath c.2 c.1.1 c.1.2 true

/-! ## Looking up -/

/-- The first library of a name directly below a library. -/
def child (lib : Library) (name : Text) : Option Library :=
  lib.children.find? (·.name = name)

/-- The library that some names lead to. -/
def findParts : List Text → Library → Option Library
  | [], lib => some lib
  | name :: names, lib => lib.child name >>= findParts names

/-- The library at a path. -/
def find (lib : Library) (path : Text) : Option Library := findParts (Path.parts path) lib

end Library

/-- A file with the library that owns it. -/
structure Located where
  file : File
  library : Library
  deriving DecidableEq, Repr

namespace Located

/-- The path of a file from the root of the tree. -/
def path (l : Located) : Text :=
  if l.library.path.isEmpty then l.file.path else l.library.path ++ "/" ++ l.file.path

end Located

namespace Library

mutual
/-- The files that a library makes accessible: its own, then those of the
libraries below that are not private. -/
def accessible : Library → List Located
  | ⟨name, path, files, children⟩ =>
    files.map (⟨·, ⟨name, path, files, children⟩⟩) ++ accessibleBelow children

/-- The files that some libraries make accessible to the one above. -/
def accessibleBelow : List Library → List Located
  | [] => []
  | lib :: libs =>
    (if lib.isPrivate then [] else lib.accessible) ++ accessibleBelow libs
end

mutual
/-- Every file of a tree, from the top down. -/
def all : Library → List Located
  | ⟨name, path, files, children⟩ =>
    files.map (⟨·, ⟨name, path, files, children⟩⟩) ++ allBelow children

/-- Every file of some trees. -/
def allBelow : List Library → List Located
  | [] => []
  | lib :: libs => lib.all ++ allBelow libs
end

end Library

end Stencil
