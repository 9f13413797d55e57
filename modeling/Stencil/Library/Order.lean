import Stencil.Library.Tree

/-!
# The order of files

Files are put in order by the path of their library, component by
component, and then by their path within it. A library's own files come
before those of the libraries below it, and nothing comes between. Files
that this does not tell apart keep the order they had.

## Main definitions

* `Located.precedes` — the order.
* `Located.sort` — files in order.
-/

namespace Stencil.Located

/-- Whether a file may stand before another. -/
def precedes (a b : Located) : Bool :=
  a.library.pathParts < b.library.pathParts ||
    (a.library.pathParts = b.library.pathParts && ¬ b.file.path < a.file.path)

/-- Items put in the order of their files. -/
def sortBy {α : Type} (file : α → Located) (items : List α) : List α :=
  items.mergeSort fun a b => (file a).precedes (file b)

/-- Files in order. -/
def sort (files : List Located) : List Located := sortBy id files

end Stencil.Located
