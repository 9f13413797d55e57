import Stencil.Value.Keyed

/-!
# Merging plain values

A value that overrides another one replaces it, except that a map laid over
a map is merged into it key by key: what stands under a key of both is
merged in turn, and a key of only one of them stays as it is.

## Main definitions

* `Keyed.update` — changing what stands under a key, or adding it.
* `Value.mergeOver` — a value laid over another.
-/

namespace Stencil

namespace Keyed

variable {α : Type}

/-- Entries in which what stands under `key` is changed, or `a` is added
under it if nothing does. -/
def update (key : Value) (change : α → α) (a : α) : List (Value × α) → List (Value × α)
  | [] => [(key, a)]
  | (k, b) :: es => if k.same key then (k, change b) :: es else (k, b) :: update key change a es

end Keyed

namespace Value

mutual
/-- The value that is left when `patch` is laid over `base`. -/
def mergeOver (patch base : Value) : Value :=
  match patch with
  | .map ps =>
    match base with
    | .map es => .map (mergeEntriesOver ps es)
    | _ => .map ps
  | v => v

/-- The entries that are left when others are laid over them one by one. -/
def mergeEntriesOver : List (Value × Value) → List (Value × Value) → List (Value × Value)
  | [], es => es
  | (k, v) :: ps, es => mergeEntriesOver ps (Keyed.update k (fun old => v.mergeOver old) v es)
end

end Value

end Stencil
