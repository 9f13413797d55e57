import Mathlib.Data.List.Nodup
import Stencil.Proofs.Library.Grouping

/-!
# Libraries that a library exposes

A library exposes itself and what is exposed by those directly below it that
are not private. What an exposed library makes accessible stands together, and
in the same order, among what the one above makes accessible; and no other file
that the one above makes accessible is a file of the exposed library, if no two
files of the tree have the same path from the root. In a tree that is grown from
different relative paths, none have.

## Main definitions

* `Library.Exposed` — the libraries that a library exposes.

## Main results

* `Library.Exposed.accessible_filter` — the accessible files of an exposed
  library, among those of the one above.
* `Library.ofFiles_paths_nodup` — a tree of different relative paths.
-/

namespace Stencil.Library

/-- Whether a library is reached from another through libraries that are not
private. -/
inductive Exposed (lib : Library) : Library → Prop
  | here : Exposed lib lib
  | inside {name path : Text} {files : List File} {children : List Library} {child : Library}
      (mem : child ∈ children) (shown : child.isPrivate = false) (exposed : Exposed lib child) :
      Exposed lib ⟨name, path, files, children⟩

/-- The paths of all files of a library, from the root of its tree. -/
def paths (lib : Library) : List Text := lib.all.map Located.path

/-- What one of several libraries has stands together among what all have; and
it is accessible from above, if it is from that library. -/
private theorem below_split {child : Library} {libs : List Library} (mem : child ∈ libs)
    (shown : child.isPrivate = false) :
    ∃ before after before' after' : List Located,
      accessibleBelow libs = before ++ child.accessible ++ after ∧
        allBelow libs = before' ++ child.all ++ after' ∧
          before.Sublist before' ∧ after.Sublist after' := by
  induction libs with
  | nil => cases mem
  | cons lib libs ih =>
      rw [accessibleBelow, allBelow]
      rcases List.mem_cons.mp mem with rfl | mem
      · refine ⟨[], accessibleBelow libs, [], allBelow libs, ?_, rfl, List.nil_sublist _,
          accessibleBelow_sublist_allBelow libs⟩
        rw [shown]
        rfl
      · obtain ⟨before, after, before', after', haccessible, hall, hbefore, hafter⟩ := ih mem
        refine ⟨(if lib.isPrivate then [] else lib.accessible) ++ before, after,
          lib.all ++ before', after', ?_, ?_, List.Sublist.append ?_ hbefore, hafter⟩
        · simp only [haccessible, List.append_assoc]
        · simp only [hall, List.append_assoc]
        · split
          · exact List.nil_sublist _
          · exact accessible_sublist_all lib

namespace Exposed

variable {lib top : Library}

/-- **What an exposed library has** stands together among what the one above
has; and it is accessible from above, if it is from the exposed library. The
induction follows the way down; what stands before and after grows by the files
of the libraries beside it. -/
theorem split (h : lib.Exposed top) :
    ∃ before after before' after' : List Located,
      top.accessible = before ++ lib.accessible ++ after ∧
        top.all = before' ++ lib.all ++ after' ∧
          before.Sublist before' ∧ after.Sublist after' := by
  induction h with
  | here => exact ⟨[], [], [], [], by simp, by simp, .slnil, .slnil⟩
  | @inside name path files children child mem shown _ ih =>
      obtain ⟨b, a, b', a', haccessible, hall, hbefore, hafter⟩ := ih
      obtain ⟨c, d, c', d', hbelow, hallBelow, hbefore', hafter'⟩ := below_split mem shown
      let own : List Located := files.map (⟨·, ⟨name, path, files, children⟩⟩)
      refine ⟨own ++ c ++ b, a ++ d, own ++ c' ++ b', a' ++ d', ?_, ?_, ?_, ?_⟩
      · rw [accessible, hbelow, haccessible]
        simp only [own, List.append_assoc]
      · rw [all, hallBelow, hall]
        simp only [own, List.append_assoc]
      · exact ((List.Sublist.refl own).append hbefore').append hbefore
      · exact hafter.append hafter'

/-- **The accessible files of an exposed library** are those of the one above
that have the path of one of its files. -/
theorem accessible_filter (h : lib.Exposed top) (once : top.paths.Nodup) :
    top.accessible.filter (fun f => f.path ∈ lib.paths) = lib.accessible := by
  obtain ⟨before, after, before', after', haccessible, hall, hbefore, hafter⟩ := h.split
  rw [paths, hall, List.map_append, List.map_append, List.nodup_append, List.nodup_append] at once
  obtain ⟨⟨-, -, hfirst⟩, -, hlast⟩ := once
  have hinside : ∀ f ∈ lib.accessible, f.path ∈ lib.paths := fun f hf =>
    List.mem_map_of_mem ((accessible_sublist_all lib).subset hf)
  have hnone : ∀ files : List Located, (∀ f ∈ files, f.path ∉ lib.paths) →
      files.filter (fun f => f.path ∈ lib.paths) = [] := by
    intro files hfiles
    exact List.filter_eq_nil_iff.mpr fun f hf => by simpa using hfiles f hf
  have hbeforeNone := hnone before fun f hf hpath =>
    hfirst _ (List.mem_map_of_mem (hbefore.subset hf)) _ hpath rfl
  have hafterNone := hnone after fun f hf hpath =>
    hlast _ (List.mem_append_right _ hpath) _ (List.mem_map_of_mem (hafter.subset hf)) rfl
  have hlib : lib.accessible.filter (fun f => f.path ∈ lib.paths) = lib.accessible :=
    List.filter_eq_self.mpr fun f hf => decide_eq_true (hinside f hf)
  rw [haccessible, List.filter_append, List.filter_append, hbeforeNone, hafterNone, hlib]
  simp

end Exposed

/-- **No two files have the same path** in a tree that is grown from different
relative paths, or in a library within it. -/
theorem ofFiles_paths_nodup {files : List File} (relative : ∀ f ∈ files, Path.Relative f.path)
    (distinct : (files.map (·.path)).Nodup) {lib : Library} (within : lib.Within (ofFiles files)) :
    lib.paths.Nodup := by
  have hperm := (whole_perm_of_relative relative).map File.path
  rw [List.map_map, apart_paths] at hperm
  have hall : (ofFiles files).paths.Nodup := hperm.nodup_iff.mpr distinct
  exact hall.sublist (within.all_sublist.map Located.path)

end Stencil.Library
