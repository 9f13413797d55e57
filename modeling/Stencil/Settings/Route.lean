import Stencil.Library.Path
import Stencil.Text.Native

/-!
# Places of the file system, and paths to them

A place is the list of names that lead to it from the top. A path leads there
too, from the top or from a directory where it is read, and may step up on the
way; what matters of its text is what it starts with and its names. Stepping up
from the top leads nowhere else.

## Main definitions

* `Place` — the names that lead to a file or directory from the top.
* `Place.ancestors` — a directory and all those above it.
* `Route`, `Route.ofText` — what matters of a path.
* `Route.text` — a path as it is shown.
* `Route.resolveFrom` — the place of a path when all steps up are taken.
-/

namespace Stencil

/-- The names that lead to a file or directory from the top. -/
abbrev Place := List Text

namespace Place

/-- The name that leads back up. -/
def parentName : Text := ".."

/-- A place with one more name taken. -/
def step (here : Place) (name : Text) : Place :=
  if name = parentName then here.dropLast else here ++ [name]

/-- The directories above a place whose names are given from the inside
out, nearest first, the place itself included. -/
def ancestorsFrom : List Text → List Place
  | [] => [[]]
  | name :: outer => (name :: outer).reverse :: ancestorsFrom outer

/-- A directory and all those above it, nearest first. -/
def ancestors (p : Place) : List Place := ancestorsFrom p.reverse

end Place

/-- What a path starts with. Two separators are kept apart from any other number
of them, though they lead to the same place. -/
inductive Anchor where
  | relative | top | doubled
  deriving DecidableEq, Repr

namespace Anchor

/-- What a path starts with, as it is shown. -/
def text : Anchor → Text
  | .relative => []
  | .top => "/"
  | .doubled => "//"

/-- What a path starts with, from its text. -/
def ofText (path : Text) : Anchor :=
  match (path.takeWhile (· = Path.separator)).length with
  | 0 => .relative
  | 2 => .doubled
  | _ => .top

/-- Any number of separators leads to the top. -/
def settled : Anchor → Anchor
  | .relative => .relative
  | .top | .doubled => .top

end Anchor

/-- A path: what it starts with, and its names. -/
structure Route where
  anchor : Anchor
  names : List Text
  deriving DecidableEq, Repr

namespace Route

/-- The path that a text writes. -/
def ofText (path : Text) : Route :=
  ⟨.ofText path, (path.splitOn Path.separator).filter Path.isPart⟩

/-- The path from the top to a place. -/
def ofPlace (p : Place) : Route := ⟨.top, p⟩

/-- A path as it is shown. -/
def text (r : Route) : Text :=
  let written := r.anchor.text ++ Text.joinWith "/" r.names
  if written.isEmpty then "." else written

/-- A path with one more name. A step up takes the last name off, if there is one
to take off. -/
def step (r : Route) (name : Text) : Route :=
  let stays := r.anchor = .relative && r.names.getLast?.all (· = Place.parentName)
  if name = Place.parentName && !stays then { r with names := r.names.dropLast }
  else { r with names := r.names ++ [name] }

/-- The place that some names lead to from another one when all steps up are
taken. What leads to each name is looked up on the way, and need not be there. -/
def resolveFrom (before : Route) (here : Place) : List Text → Except Native.Obstacle Place
  | [] => .ok here
  | name :: names =>
    match if name = Place.parentName then none else Native.obstacle? (before.step name).text with
    | some obstacle => .error obstacle
    | none => resolveFrom (before.step name) (here.step name) names

end Route

end Stencil
