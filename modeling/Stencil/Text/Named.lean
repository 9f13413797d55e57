import Stencil.Text.Basic

/-!
# Values by name

Some things are kept by name in the order in which the names came up.
Writing under a name that is already there keeps its place. A name is a
text, or anything else that can be told apart.

## Main definitions

* `Named.put` — writing under a name.
* `Named.ofList` — what is left after writing pairs one by one.
-/

namespace Stencil.Named

variable {ν α : Type} [DecidableEq ν]

/-- Pairs after writing a value under a name. -/
def put (name : ν) (a : α) : List (ν × α) → List (ν × α)
  | [] => [(name, a)]
  | (n, b) :: rest => if n = name then (n, a) :: rest else (n, b) :: put name a rest

/-- Pairs after writing some of them one by one. -/
def ofList (pairs : List (ν × α)) : List (ν × α) :=
  pairs.foldl (fun named p => put p.1 p.2 named) []

end Stencil.Named
