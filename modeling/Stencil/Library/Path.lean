import Stencil.Text.Basic

/-!
# Paths

Paths are texts with `/` between components. Two ways of reading them are
needed. Looking something up goes by `parts`: empty components and single
dots do not count, two dots do, and leading separators form a part of their
own. Placing a file in a tree goes by `splitFile`, which cuts at every
separator and takes components as they are, except that a separator at the
very end belongs to the file's name.

## Main definitions

* `Path.parts` — the components that a look-up follows.
* `Path.name`, `Path.suffix` — the last component and its extension.
* `Path.splitFile` — the directories and the file of a path in a tree.
* `Path.join` — a component below a path.
-/

namespace Stencil.Path

/-- The separator of components. -/
def separator : CodePoint := '/'

/-- The part that leading separators form: exactly two are kept apart from
any other number. -/
def root (path : Text) : List Text :=
  match (path.takeWhile (· = separator)).length with
  | 0 => []
  | 2 => ["//"]
  | _ => ["/"]

/-- Whether a component counts. -/
def isPart (component : Text) : Bool := !component.isEmpty && component ≠ ("." : Text)

/-- The components of a path that a look-up follows. -/
def parts (path : Text) : List Text :=
  root path ++ (path.splitOn separator).filter isPart

/-- The last component of a path; leading separators are not a name. -/
def name (path : Text) : Text :=
  ((path.splitOn separator).filter isPart).getLast?.getD []

/-- The extension of a file name with its dot: the text from the last dot
on, if the name neither starts nor ends with that dot. -/
def suffix (fileName : Text) : Text :=
  let ending := (fileName.reverse.takeWhile fun (c : CodePoint) => c ≠ '.').reverse
  let before := fileName.length - ending.length - 1
  if ending.length < fileName.length && 0 < before && !ending.isEmpty then
    ("." : Text) ++ ending
  else []

/-- The directories that lead to a file, and what is left of the path for
its name. -/
def splitFile : Text → List Text × Text
  | [] => ([], [])
  | [c] => ([], [c])
  | c :: d :: t =>
    let (dirs, file) := splitFile (d :: t)
    if c = separator then ([] :: dirs, file)
    else
      match dirs with
      | [] => ([], c :: file)
      | dir :: rest => ((c :: dir) :: rest, file)

/-- A component below a path; the empty path is the top. -/
def join (path component : Text) : Text :=
  if path.isEmpty then component else path ++ "/" ++ component

end Stencil.Path
