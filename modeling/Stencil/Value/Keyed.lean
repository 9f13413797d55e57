import Stencil.Value.Basic

/-!
# Entries found by key

The entries of a map are a list of pairs in the order of first insertion.
Writing under a key that is already there keeps the key and its place and
replaces what stands under it.

## Main definitions

* `Keyed.find?` — what stands under a key.
* `Keyed.insert` — writing under a key.
* `Keyed.ofList` — the entries left after writing pairs one by one.
-/

namespace Stencil.Keyed

variable {α : Type}

/-- What stands under a key. -/
def find? (key : Value) : List (Value × α) → Option α
  | [] => none
  | (k, a) :: es => if k.same key then some a else find? key es

/-- Whether a key is there. -/
def hasKey (key : Value) (es : List (Value × α)) : Bool := (find? key es).isSome

/-- Entries after writing `a` under `key`. -/
def insert (key : Value) (a : α) : List (Value × α) → List (Value × α)
  | [] => [(key, a)]
  | (k, b) :: es => if k.same key then (k, a) :: es else (k, b) :: insert key a es

/-- Entries after writing pairs one by one. -/
def ofList (pairs : List (Value × α)) : List (Value × α) :=
  pairs.foldl (fun es p => insert p.1 p.2 es) []

end Stencil.Keyed
