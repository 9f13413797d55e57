import Stencil.Library.Tree

/-!
# Where evaluation stands

An engine is told which library the file at hand belongs to and from which
root that library was reached.

## Main definitions

* `Context` — the current library and the root.
-/

namespace Stencil

/-- The library at hand, and the root it was reached from. -/
structure Context where
  current : Library
  root : Library
  deriving Repr

namespace Context

/-- The context of a root. -/
def ofRoot (lib : Library) : Context := ⟨lib, lib⟩

/-- The same root with another library at hand. -/
def withCurrent (c : Context) (lib : Library) : Context := ⟨lib, c.root⟩

end Context

end Stencil
