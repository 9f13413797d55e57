import Mathlib.Data.List.Nodup
import Stencil.Library.Tree

/-!
# Libraries within a tree

A library is within a tree if it is the root of the tree or within one of
the libraries directly below. Private libraries count like any other. What a
library makes accessible is found, in the same order, among all files of
every tree that it is within; so if no file occurs twice in the tree, none
is accessible twice.

## Main definitions

* `Library.Within` — the libraries of a tree.

## Main results

* `Library.accessible_sublist_all` — accessible files are files of the tree.
* `Library.Within.accessible_nodup` — none of them is accessible twice.
-/

namespace Stencil.Library

/-- Whether a library is one of a tree's. -/
inductive Within (lib : Library) : Library → Prop
  | here : Within lib lib
  | inside {name path : Text} {files : List File} {children : List Library} {child : Library}
      (mem : child ∈ children) (within : Within lib child) :
      Within lib ⟨name, path, files, children⟩

mutual
/-- Accessible files are files of the tree, in the same order. -/
theorem accessible_sublist_all : ∀ lib : Library, lib.accessible.Sublist lib.all
  | ⟨name, path, files, children⟩ => by
      rw [accessible, all]
      exact (List.Sublist.refl _).append (accessibleBelow_sublist_allBelow children)

theorem accessibleBelow_sublist_allBelow :
    ∀ libs : List Library, (accessibleBelow libs).Sublist (allBelow libs)
  | [] => List.Sublist.refl _
  | lib :: libs => by
      rw [accessibleBelow, allBelow]
      refine List.Sublist.append ?_ (accessibleBelow_sublist_allBelow libs)
      split
      · exact List.nil_sublist _
      · exact accessible_sublist_all lib
end

/-- The files of one of several trees are among the files of all. -/
private theorem all_sublist_allBelow {lib : Library} {libs : List Library} (h : lib ∈ libs) :
    lib.all.Sublist (allBelow libs) := by
  induction libs with
  | nil => cases h
  | cons other libs ih =>
      rw [allBelow]
      rcases List.mem_cons.mp h with rfl | h
      · exact List.sublist_append_left _ _
      · exact (ih h).trans (List.sublist_append_right _ _)

namespace Within

variable {lib tree : Library}

/-- All files of a library are files of every tree that it is within. -/
theorem all_sublist (h : lib.Within tree) : lib.all.Sublist tree.all := by
  induction h with
  | here => exact List.Sublist.refl _
  | inside mem _ ih =>
      rw [all]
      exact (ih.trans (all_sublist_allBelow mem)).trans (List.sublist_append_right _ _)

theorem accessible_sublist (h : lib.Within tree) : lib.accessible.Sublist tree.all :=
  (accessible_sublist_all lib).trans h.all_sublist

/-- **No file is accessible twice** if none occurs twice in the tree. -/
theorem accessible_nodup (h : lib.Within tree) (once : (tree.all.map (·.file.id)).Nodup) :
    lib.accessible.Nodup := by
  have hids : (lib.accessible.map (·.file.id)).Nodup := once.sublist (h.accessible_sublist.map _)
  exact hids.of_map

end Within

end Stencil.Library
