import Mathlib.Data.List.Nodup
import Stencil.Library.Order
import Stencil.Proofs.Library.Growth
import Stencil.Proofs.Library.Within

/-!
# Sorted files

The order of files compares the components of the library's path and then
the path of the file within it. It is total and transitive, and two files of
which each may stand before the other have the same components and the same
path. Among the files of a tree that grew from plain paths there are no two
such files: their addresses are told apart by what the order compares. So
sorting the same files always gives the same addresses in the same order.

In other trees there can be such files, and sorting keeps the order in which
they came. So it does not matter whether some files are picked out before or
after sorting.

## Main definitions

* `sortKey` — what the order compares, from an address.
* `Located.InOrder` — files in order, those that compare the same as they came.

## Main results

* `Located.precedes_total`, `Located.precedes_trans`,
  `Located.precedes_antisymm` — the order.
* `Library.ofFiles_allKeys_nodup` — no two files of a tree of plain, distinct
  paths compare the same.
* `Located.sort_addresses` — sorting depends on the addresses alone.
* `Located.sort_of_perm` — nor on the order in which the files come.
* `Located.sortBy_ties`, `Located.sortBy_filter` — files that compare the same,
  and some of the files.
* `Located.inOrder_iff` — sorting is the one way to put files in order.
-/

namespace Stencil

/-! ## Texts are ordered -/

instance : Trans (α := CodePoint) (· < ·) (· < ·) (· < ·) := ⟨fun h k => Nat.lt_trans h k⟩

instance : Std.Asymm (α := CodePoint) (· < ·) := ⟨fun _ _ h k => Nat.lt_asymm h k⟩

instance : Std.Trichotomous (α := CodePoint) (· < ·) where
  trichotomous a b h k := by
    obtain ⟨m⟩ := a
    obtain ⟨n⟩ := b
    exact congrArg CodePoint.mk (Nat.le_antisymm (Nat.le_of_not_lt k) (Nat.le_of_not_lt h))

instance : Std.Trichotomous (α := Text) (· < ·) := ⟨fun _ _ h k => List.le_antisymm k h⟩

/-- What is not greater goes on being so. -/
private theorem Text.not_lt_trans {a b c : Text} (h : ¬ b < a) (k : ¬ c < b) : ¬ c < a := by
  intro hca
  by_cases hbc : b < c
  · exact h (List.lt_trans hbc hca)
  · have heq : b = c := Std.Trichotomous.trichotomous b c hbc k
    exact h (heq ▸ hca)

/-! ## The order of files -/

/-- What the order of files compares, from the address of a file. -/
def sortKey (a : Text × File) : List Text × Text := (Path.parts a.1, a.2.path)

/-- The order on keys. -/
def keyPrecedes (k k' : List Text × Text) : Prop :=
  k.1 < k'.1 ∨ k.1 = k'.1 ∧ ¬ k'.2 < k.2

namespace Located

variable {a b c : Located}

theorem precedes_iff :
    a.precedes b = true ↔ keyPrecedes (sortKey a.address) (sortKey b.address) := by
  simp only [precedes, Bool.or_eq_true, Bool.and_eq_true, decide_eq_true_eq]
  rfl

/-- Of two files one may stand before the other. -/
theorem precedes_total (a b : Located) : (a.precedes b || b.precedes a) = true := by
  rw [Bool.or_eq_true, precedes_iff, precedes_iff]
  generalize sortKey a.address = k
  generalize sortKey b.address = k'
  by_cases hlt : k.1 < k'.1
  · exact .inl (.inl hlt)
  by_cases hgt : k'.1 < k.1
  · exact .inr (.inl hgt)
  have heq : k.1 = k'.1 := Std.Trichotomous.trichotomous (r := (· < ·)) _ _ hlt hgt
  by_cases hpath : k'.2 < k.2
  · exact .inr (.inr ⟨heq.symm, List.lt_asymm hpath⟩)
  · exact .inl (.inr ⟨heq, hpath⟩)

theorem precedes_trans (h : a.precedes b = true) (k : b.precedes c = true) :
    a.precedes c = true := by
  rw [precedes_iff] at *
  rcases h with h | ⟨h, h'⟩ <;> rcases k with k | ⟨k, k'⟩
  · exact .inl (List.lt_trans h k)
  · exact .inl (k ▸ h)
  · exact .inl (h ▸ k)
  · exact .inr ⟨h.trans k, Text.not_lt_trans h' k'⟩

/-- Files of which each may stand before the other compare the same. -/
theorem precedes_antisymm {k k' : List Text × Text} (h : keyPrecedes k k')
    (h' : keyPrecedes k' k) : k = k' := by
  rcases h with h | ⟨h, hpath⟩ <;> rcases h' with h' | ⟨h', hpath'⟩
  · exact absurd h' (List.lt_asymm h)
  · exact absurd (h' ▸ h) (List.lt_irrefl _)
  · exact absurd (h ▸ h') (List.lt_irrefl _)
  · exact Prod.ext h (Std.Trichotomous.trichotomous (r := (· < ·)) _ _ hpath' hpath)

/-- Whether items are in the order of their files. -/
def Ordered {α : Type} (file : α → Located) (items : List α) : Prop :=
  items.Pairwise fun a b => (file a).precedes (file b) = true

private theorem precedes_trans_of {α : Type} (file : α → Located) (a b c : α)
    (h : (file a).precedes (file b) = true) (k : (file b).precedes (file c) = true) :
    (file a).precedes (file c) = true := precedes_trans h k

theorem sortBy_ordered {α : Type} (file : α → Located) (items : List α) :
    Ordered file (sortBy file items) :=
  List.pairwise_mergeSort (precedes_trans_of file)
    (fun a b => precedes_total (file a) (file b)) items

theorem sortBy_perm {α : Type} (file : α → Located) (items : List α) :
    (sortBy file items).Perm items := List.mergeSort_perm _ _

/-- Sorted files are in order, by their addresses. -/
private theorem sort_pairwise (files : List Located) :
    ((sort files).map address).Pairwise
      fun a b => keyPrecedes (sortKey a) (sortKey b) := by
  rw [List.pairwise_map]
  exact (sortBy_ordered id files).imp fun h => precedes_iff.mp h

/-- **Sorting depends on the addresses alone**, if they are told apart by
what the order compares. -/
theorem sort_addresses {files files' : List Located}
    (perm : (files.map address).Perm (files'.map address))
    (keys : ((files.map address).map sortKey).Nodup) :
    (sort files).map address = (sort files').map address := by
  have hfiles : ((sort files).map address).Perm (files.map address) :=
    (List.mergeSort_perm files _).map address
  have hfiles' : ((sort files').map address).Perm (files'.map address) :=
    (List.mergeSort_perm files' _).map address
  refine List.Perm.eq_of_pairwise ?_ (sort_pairwise files) (sort_pairwise files')
    (hfiles.trans (perm.trans hfiles'.symm))
  intro a b ha hb hab hba
  exact List.inj_on_of_nodup_map keys (hfiles.subset ha)
    (perm.symm.subset (hfiles'.subset hb)) (precedes_antisymm hab hba)

/-- **The order in which files come** does not matter, if what the order compares
tells them apart. -/
theorem sort_of_perm {files files' : List Located} (perm : files.Perm files')
    (keys : (files.map fun f => sortKey f.address).Nodup) : sort files = sort files' := by
  have hfiles : (sort files).Perm files := sortBy_perm id files
  have hfiles' : (sort files').Perm files := (sortBy_perm id files').trans perm.symm
  refine List.Perm.eq_of_pairwise ?_ (sortBy_ordered id files) (sortBy_ordered id files')
    (hfiles.trans hfiles'.symm)
  intro a b ha hb hab hba
  exact List.inj_on_of_nodup_map keys (hfiles.subset ha) (hfiles'.subset hb)
    (precedes_antisymm (precedes_iff.mp hab) (precedes_iff.mp hba))

/-! ## Files that compare the same -/

section Ties

variable {α : Type} {file : α → Located} {items items' : List α}

/-- Whether the order compares a file as some key. -/
def keyed (k : List Text × Text) (l : Located) : Bool := sortKey l.address = k

theorem keyed_self (l : Located) : keyed (sortKey l.address) l = true := decide_eq_true rfl

/-- **Files that compare the same** keep their order when they are sorted. -/
theorem sortBy_ties (file : α → Located) (items : List α) (k : List Text × Text) :
    (sortBy file items).filter (fun i => keyed k (file i)) =
      items.filter fun i => keyed k (file i) := by
  have tied : Ordered file (items.filter fun i => keyed k (file i)) := by
    refine List.pairwise_of_forall_mem_list fun a ha b hb => precedes_iff.mpr (.inr ?_)
    simp only [List.mem_filter, keyed, decide_eq_true_eq] at ha hb
    rw [ha.2, hb.2]
    exact ⟨rfl, List.lt_irrefl _⟩
  have hsub : (items.filter fun i => keyed k (file i)).Sublist (sortBy file items) :=
    List.sublist_mergeSort (precedes_trans_of file)
      (fun a b => precedes_total (file a) (file b)) tied List.filter_sublist
  have hkept := hsub.filter fun i => keyed k (file i)
  simp only [List.filter_filter, Bool.and_self] at hkept
  exact (hkept.eq_of_length ((sortBy_perm file items).filter _).length_eq.symm).symm

/-- An item is found among the others of its key. -/
private theorem mem_of_ties {a : α} (h : a ∈ items)
    (ties : ∀ k, items.filter (fun i => keyed k (file i)) =
      items'.filter fun i => keyed k (file i)) : a ∈ items' := by
  have hmem : a ∈ items.filter fun i => keyed (sortKey (file a).address) (file i) :=
    List.mem_filter.mpr ⟨h, keyed_self _⟩
  rw [ties] at hmem
  exact (List.mem_filter.mp hmem).1

/-- An item in order is not behind the first one. -/
private theorem Ordered.precedes_of_mem {a b : α} (h : Ordered file (a :: items))
    (mem : b ∈ a :: items) : (file a).precedes (file b) = true := by
  rcases List.mem_cons.mp mem with rfl | mem
  · simpa using precedes_total (file b) (file b)
  · exact List.rel_of_pairwise_cons h mem

/-- Items in order are known from those of each key. Each of two that come
first is among the other items, so they compare the same, and both are the first
of their key. -/
theorem Ordered.eq_of_ties (h : Ordered file items) (h' : Ordered file items')
    (ties : ∀ k, items.filter (fun i => keyed k (file i)) =
      items'.filter fun i => keyed k (file i)) : items = items' := by
  induction items generalizing items' with
  | nil =>
      cases items' with
      | nil => rfl
      | cons b bs => cases mem_of_ties (List.mem_cons_self ..) fun k => (ties k).symm
  | cons a as ih =>
      cases items' with
      | nil => cases mem_of_ties (List.mem_cons_self ..) ties
      | cons b bs =>
          have hab := h.precedes_of_mem
            (mem_of_ties (List.mem_cons_self ..) fun k => (ties k).symm)
          have hba := h'.precedes_of_mem (mem_of_ties (List.mem_cons_self ..) ties)
          have hkey : sortKey (file b).address = sortKey (file a).address :=
            precedes_antisymm (precedes_iff.mp hba) (precedes_iff.mp hab)
          have hb : keyed (sortKey (file a).address) (file b) = true := decide_eq_true hkey
          have hfirst := ties (sortKey (file a).address)
          simp only [List.filter_cons, keyed_self, hb, if_true, List.cons.injEq] at hfirst
          obtain ⟨rfl, -⟩ := hfirst
          refine congrArg (a :: ·) (ih h.of_cons h'.of_cons fun k => ?_)
          have hties := ties k
          cases hk : keyed k (file a)
          · simpa [List.filter_cons, hk] using hties
          · simpa [List.filter_cons, hk] using hties

/-- Some files in the order of files: by the components of the library's path, and then by
the path of the file within it. Files in which these are the same keep their order. -/
structure InOrder (files order : List Located) : Prop where
  perm : order.Perm files
  sorted : order.Pairwise fun f g => f.library.pathParts < g.library.pathParts ∨
    f.library.pathParts = g.library.pathParts ∧ ¬ g.file.path < f.file.path
  stable : ∀ (parts : List Text) (path : Text),
    order.filter (fun f => f.library.pathParts = parts ∧ f.file.path = path) =
      files.filter fun f => f.library.pathParts = parts ∧ f.file.path = path

theorem keyed_eq (k : List Text × Text) :
    keyed k = fun l : Located => decide (l.library.pathParts = k.1 ∧ l.file.path = k.2) := by
  funext l
  exact decide_eq_decide.mpr Prod.ext_iff

/-- Files are sorted in one way. -/
theorem inOrder_iff {files order : List Located} : InOrder files order ↔ order = sort files := by
  have ties (k : List Text × Text) := sortBy_ties id files k
  simp only [id, keyed_eq] at ties
  constructor
  · rintro ⟨-, sorted, stable⟩
    refine Ordered.eq_of_ties (sorted.imp precedes_iff.mpr) (sortBy_ordered id files) fun k => ?_
    simp only [keyed_eq]
    exact (stable k.1 k.2).trans (ties k).symm
  · rintro rfl
    exact ⟨sortBy_perm id files, (sortBy_ordered id files).imp precedes_iff.mp,
      fun parts path => ties (parts, path)⟩

/-- Sorting depends only on the order among files that compare the same. -/
theorem sortBy_congr (ties : ∀ k, items.filter (fun i => keyed k (file i)) =
    items'.filter fun i => keyed k (file i)) : sortBy file items = sortBy file items' := by
  refine (sortBy_ordered file items).eq_of_ties (sortBy_ordered file items') fun k => ?_
  rw [sortBy_ties, sortBy_ties, ties]

/-- **Some of the files**, picked out before or after sorting. -/
theorem sortBy_filter (p : α → Bool) (items : List α) :
    sortBy file (items.filter p) = (sortBy file items).filter p := by
  refine (sortBy_ordered file _).eq_of_ties ((sortBy_ordered file items).filter p) fun k => ?_
  rw [sortBy_ties, List.filter_comm _ p, List.filter_comm _ p, sortBy_ties]

/-- The files of sorted items, among others, are sorted as those of the items. -/
theorem sort_append_sortBy (file : α → Located) (items : List α) (others : List Located) :
    sort ((sortBy file items).map file ++ others) = sort (items.map file ++ others) := by
  refine sortBy_congr fun k => ?_
  have hties := congrArg (List.map file) (sortBy_ties file items k)
  rw [List.filter_append, List.filter_append, List.filter_map, List.filter_map]
  exact congrArg (· ++ others.filter _) hties

end Ties

end Located

/-! ## Trees of plain paths -/

namespace Library

/-- A file of a plain path is compared by what the path is cut into. -/
private theorem sortKey_seat {f : File} (plain : Path.Plain f.path) :
    sortKey (seat f) = Path.splitFile f.path :=
  Prod.ext (Path.parts_joins (Path.splitFile_of_plain plain)) rfl

section Keys

variable {files : List File} (plain : ∀ f ∈ files, Path.Plain f.path)
  (distinct : (files.map (·.path)).Nodup)
include plain distinct

/-- **No two files compare the same** in a tree of plain paths that are all
different, private ones included. -/
theorem ofFiles_allKeys_nodup : ((ofFiles files).allAddresses.map sortKey).Nodup := by
  have hcut : (files.map seat).map sortKey = (files.map (·.path)).map Path.splitFile := by
    rw [List.map_map, List.map_map]
    exact List.map_congr_left fun f hf => sortKey_seat (plain f hf)
  rw [((ofFiles_allAddresses files).map sortKey).nodup_iff, apart_of_nodup distinct.of_map, hcut]
  exact distinct.map fun _ _ h => Path.splitFile_injective h

/-- So no two accessible files do. -/
theorem ofFiles_keys_nodup : ((ofFiles files).addresses.map sortKey).Nodup :=
  (ofFiles_allKeys_nodup plain distinct).sublist
    (((accessible_sublist_all _).map Located.address).map sortKey)

end Keys

end Library

end Stencil
