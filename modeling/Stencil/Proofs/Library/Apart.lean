import Mathlib.Data.List.Forall2
import Stencil.Library.Tree

/-!
# Files with numbers of their own

A file can be given several times, and below a directory it then becomes as many
files, each with a number of its own. Nothing else of a file changes. If no file is
given twice, none changes at all.

What keeps the numbers apart is that the ones that are taken are new: they lie above
those of all files that are given, and each is taken once.

## Main definitions

* `File.Alike` — files that differ in nothing but their numbers.

## Main results

* `Library.apart_alike` — the files stay as they are but for their numbers.
* `Library.apart_of_nodup` — files that are given once keep their numbers.
* `Library.apart_pairwise` — below a directory no number stands for two files.
-/

namespace Stencil

/-- Whether two files differ in nothing but their numbers. -/
structure File.Alike (f g : File) : Prop where
  path : g.path = f.path
  data : g.data = f.data
  kind : g.kind = f.kind
  template : g.template = f.template
  library : g.library = f.library
  output : g.output = f.output

theorem File.Alike.refl (f : File) : f.Alike f := ⟨rfl, rfl, rfl, rfl, rfl, rfl⟩

theorem File.alike_renumbered (f : File) (id : Nat) : f.Alike { f with id := id } :=
  ⟨rfl, rfl, rfl, rfl, rfl, rfl⟩

/-- What does not look at the numbers of files is the same of files that are alike. -/
theorem File.map_eq_of_alike {α : Type} {view : File → α} {files kept : List File}
    (alike : List.Forall₂ File.Alike files kept)
    (blind : ∀ f g : File, f.Alike g → view g = view f) : kept.map view = files.map view := by
  refine List.forall₂_eq_eq_eq ▸ (List.forall₂_map_left_iff.mpr (List.forall₂_map_right_iff.mpr ?_))
  exact alike.flip.imp fun g f h => blind f g h

namespace Library

variable {seen files : List File} {free : Nat}

/-! ## What stays -/

theorem apartFrom_alike (seen : List File) (free : Nat) (files : List File) :
    List.Forall₂ File.Alike files (apartFrom seen free files) := by
  induction files generalizing seen free with
  | nil => exact .nil
  | cons f files ih =>
      rw [apartFrom]
      split
      · exact .cons (f.alike_renumbered free) (ih seen (free + 1))
      · exact .cons (.refl f) (ih (f :: seen) free)

/-- **Files stay as they are** but for their numbers. -/
theorem apart_alike (files : List File) : List.Forall₂ File.Alike files (apart files) :=
  apartFrom_alike [] (freeId files) files

/-- The paths of files stay as they are. -/
theorem apart_paths (files : List File) : (apart files).map File.path = files.map File.path :=
  File.map_eq_of_alike (apart_alike files) fun _ _ h => h.path

/-- What holds of the paths of some files holds of their paths when they have numbers of
their own. -/
theorem forall_apart {P : Text → Prop} (h : ∀ f ∈ files, P f.path) :
    ∀ f ∈ apart files, P f.path :=
  List.forall_mem_map.mp (apart_paths files ▸ List.forall_mem_map.mpr h)

theorem apartFrom_of_nodup (once : files.Nodup) (new : ∀ f ∈ files, f ∉ seen) :
    apartFrom seen free files = files := by
  induction files generalizing seen with
  | nil => rfl
  | cons f files ih =>
      obtain ⟨hf, honce⟩ := List.nodup_cons.mp once
      have first : seen.contains f = false := by
        rw [List.contains_eq_mem, decide_eq_false (new f (List.mem_cons_self ..))]
      rw [apartFrom, first, Bool.and_false, if_neg Bool.false_ne_true, ih honce]
      intro g hg hmem
      rcases List.mem_cons.mp hmem with rfl | hmem
      · exact hf hg
      · exact new g (List.mem_cons_of_mem _ hg) hmem

/-- **Files that are given once** keep their numbers. -/
theorem apart_of_nodup (once : files.Nodup) : apart files = files :=
  apartFrom_of_nodup once fun _ _ => List.not_mem_nil

/-- A file comes from one that was given; and is that one, if each is given once. -/
theorem exists_alike {g : File} (h : g ∈ apart files) :
    ∃ f ∈ files, f.Alike g ∧ (files.Nodup → f = g) := by
  by_cases once : files.Nodup
  · rw [apart_of_nodup once] at h
    exact ⟨g, h, .refl g, fun _ => rfl⟩
  · obtain ⟨i, hi, rfl⟩ := List.mem_iff_getElem.mp h
    have hlength := (apart_alike files).length_eq
    exact ⟨files[i], List.getElem_mem _, (List.forall₂_iff_get.mp (apart_alike files)).2 i
      (hlength ▸ hi) hi, fun nodup => absurd nodup once⟩

/-! ## Numbers that are new -/

theorem lt_freeId {f : File} (h : f ∈ files) : f.id < freeId files := by
  induction files with
  | nil => cases h
  | cons g files ih =>
      rw [freeId, List.foldr_cons]
      rcases List.mem_cons.mp h with rfl | h
      · exact Nat.lt_of_lt_of_le (Nat.lt_succ_self _) (Nat.le_max_left ..)
      · exact Nat.lt_of_lt_of_le (ih h) (Nat.le_max_right ..)

/-- A file has kept its number, and then it lies at the top if it has come before; or its
number is one of those that were free. -/
theorem of_mem_apartFrom {g : File} (h : g ∈ apartFrom seen free files) :
    (g ∈ files ∧ (g ∈ seen → isBelow g = false)) ∨ free ≤ g.id := by
  induction files generalizing seen free with
  | nil => cases h
  | cons f files ih =>
      rw [apartFrom] at h
      split at h
      · rcases List.mem_cons.mp h with rfl | h
        · exact .inr (Nat.le_refl free)
        · rcases ih h with ⟨mem, top⟩ | taken
          · exact .inl ⟨List.mem_cons_of_mem _ mem, top⟩
          · exact .inr (Nat.le_of_succ_le taken)
      · next kept =>
        rcases List.mem_cons.mp h with rfl | h
        · refine .inl ⟨List.mem_cons_self .., fun mem => ?_⟩
          simpa [mem] using kept
        · rcases ih h with ⟨mem, top⟩ | taken
          · exact .inl ⟨List.mem_cons_of_mem _ mem, fun hg => top (List.mem_cons_of_mem _ hg)⟩
          · exact .inr taken

/-- The induction keeps that all numbers of files that are still to come lie below the
free ones. -/
theorem apartFrom_pairwise (below : ∀ f ∈ files, f.id < free)
    (same : ∀ f ∈ files, ∀ g ∈ files, f.id = g.id → f = g) :
    (apartFrom seen free files).Pairwise fun f g => f.id = g.id → f = g ∧ isBelow f = false := by
  induction files generalizing seen free with
  | nil => exact .nil
  | cons f files ih =>
      have below' : ∀ g ∈ files, g.id < free := fun g hg => below g (List.mem_cons_of_mem _ hg)
      have same' : ∀ g ∈ files, ∀ h ∈ files, g.id = h.id → g = h := fun g hg h hh =>
        same g (List.mem_cons_of_mem _ hg) h (List.mem_cons_of_mem _ hh)
      rw [apartFrom]
      split
      · refine .cons (fun g hg heq => ?_)
          (ih (fun g hg => Nat.lt_succ_of_lt (below' g hg)) same')
        have heq : free = g.id := heq
        rcases of_mem_apartFrom hg with ⟨mem, -⟩ | taken
        · have := below' g mem
          omega
        · omega
      · refine .cons (fun g hg heq => ?_) (ih below' same')
        rcases of_mem_apartFrom hg with ⟨mem, top⟩ | taken
        · obtain rfl := same f (List.mem_cons_self ..) g (List.mem_cons_of_mem _ mem) heq
          exact ⟨rfl, top (List.mem_cons_self ..)⟩
        · have := below f (List.mem_cons_self ..)
          omega

/-- **Below a directory no number stands for two files**, if the files that are given
under one number are one file. -/
theorem apart_pairwise (same : ∀ f ∈ files, ∀ g ∈ files, f.id = g.id → f = g) :
    (apart files).Pairwise fun f g => f.id = g.id → f = g ∧ isBelow f = false :=
  apartFrom_pairwise (fun _ => lt_freeId) same

end Library

end Stencil
