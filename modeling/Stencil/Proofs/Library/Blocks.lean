import Stencil.Proofs.Library.Sorting

/-!
# Sorted files stand in blocks

In sorted order the files of a library come first among those of the libraries
below it, and all of these stand together: no file of a library beside or above
comes between. This holds because components are compared one by one, and not as
one text. A component such as `a-b` comes after everything below `a`, although
its hyphen comes before the separator.

The argument is about lists only. What begins with some components is not less
than they are, and what is not greater than something that begins with them, and
not less than they are, begins with them too. So an ordered list can be cut three
times: before the library, after its own files, and after those below.

## Main definitions

* `Located.InBlock` — files of which those in and below a library stand together.

## Main results

* `prefix_of_between` — what lies between some components and something below
  them is below them.
* `Located.sort_inBlock` — sorted files stand in blocks.
* `Located.sort_outcome` — what sorting makes of files.
-/

namespace Stencil

/-! ## Cutting an ordered list -/

/-- An ordered list can be cut where something stops to hold, if it holds of
whatever comes before something of which it holds. -/
private theorem exists_cut {α : Type} {R : α → α → Prop} {P : α → Prop} {l : List α}
    (ordered : l.Pairwise R) (closed : ∀ a ∈ l, ∀ b ∈ l, R a b → P b → P a) :
    ∃ front back, l = front ++ back ∧ (∀ a ∈ front, P a) ∧ ∀ b ∈ back, ¬ P b := by
  induction l with
  | nil => exact ⟨[], [], rfl, nofun, nofun⟩
  | cons a l ih =>
      obtain ⟨hhead, htail⟩ := List.pairwise_cons.mp ordered
      by_cases ha : P a
      · obtain ⟨front, back, rfl, hfront, hback⟩ := ih htail fun b hb c hc =>
          closed b (List.mem_cons_of_mem _ hb) c (List.mem_cons_of_mem _ hc)
        exact ⟨a :: front, back, rfl, List.forall_mem_cons.mpr ⟨ha, hfront⟩, hback⟩
      · refine ⟨[], a :: l, rfl, nofun, List.forall_mem_cons.mpr ⟨ha, fun b hb holds => ?_⟩⟩
        exact ha (closed a (List.mem_cons_self ..) b (List.mem_cons_of_mem _ hb) (hhead b hb) holds)

/-! ## Components in order -/

variable {parts ks ks' : List Text}

/-- What is not greater than something less is less itself. -/
private theorem lt_of_not_lt (h : ¬ ks' < ks) (less : ks' < parts) : ks < parts := by
  by_cases hks : ks < ks'
  · exact List.lt_trans hks less
  · have heq : ks' = ks := List.le_antisymm hks h
    exact heq ▸ less

/-- What begins with some components is not less than they are. -/
private theorem not_lt_of_prefix (h : parts <+: ks) : ¬ ks < parts := by
  obtain ⟨rest, rfl⟩ := h
  exact List.not_lt.mpr (List.le_append_left)

/-- **What lies between** some components and something that begins with them
begins with them too. -/
theorem prefix_of_between (h : parts <+: ks') (low : ¬ ks < parts) (high : ¬ ks' < ks) :
    parts <+: ks := by
  induction parts generalizing ks ks' with
  | nil => exact List.nil_prefix
  | cons part parts ih =>
      obtain ⟨rest, rfl⟩ := h
      cases ks with
      | nil => exact absurd (List.nil_lt_cons part parts) low
      | cons k ks =>
          rw [List.cons_append, List.cons_lt_cons_iff, not_or, not_and] at high
          rw [List.cons_lt_cons_iff, not_or, not_and] at low
          have hk : k = part := Std.Trichotomous.trichotomous (r := (· < ·)) _ _ low.1 high.1
          subst hk
          have hrest := ih (List.prefix_append parts rest) (low.2 rfl) (high.2 rfl)
          exact (List.prefix_cons_inj k).mpr hrest

namespace Located

/-! ## Blocks -/

/-- Whether the files in and below a library stand together among some files,
its own before the others. -/
def InBlock (parts : List Text) (files : List Located) : Prop :=
  ∃ before own below after, files = before ++ (own ++ below) ++ after ∧
    (∀ f ∈ own, f.library.pathParts = parts) ∧
    (∀ f ∈ below, parts <+: f.library.pathParts ∧ f.library.pathParts ≠ parts) ∧
    ∀ f ∈ before ++ after, ¬ parts <+: f.library.pathParts

/-- The library of a file that may stand before another is not greater. -/
private theorem not_lt_of_precedes {a b : Located} (h : a.precedes b = true) :
    ¬ b.library.pathParts < a.library.pathParts := by
  rcases precedes_iff.mp h with h | ⟨h, -⟩
  · exact List.lt_asymm h
  · have heq : a.library.pathParts = b.library.pathParts := h
    rw [heq]
    exact List.lt_irrefl _

/-- **Sorted files stand in blocks**: they are cut where the libraries stop to be
less than the one at hand, then where they stop to be that one, then where they
stop to be below it. -/
theorem sort_inBlock (parts : List Text) (files : List Located) :
    InBlock parts (sort files) := by
  have ordered : Ordered id (sort files) := sortBy_ordered id files
  obtain ⟨before, rest, hbefore, less, notLess⟩ :=
    exists_cut (P := fun f => f.library.pathParts < parts) ordered
      fun a _ b _ hab hb => lt_of_not_lt (not_lt_of_precedes hab) hb
  rw [hbefore] at ordered
  have orderedRest := (List.pairwise_append.mp ordered).2.1
  obtain ⟨own, rest', rfl, hown, others⟩ :=
    exists_cut (P := fun f => f.library.pathParts = parts) orderedRest
      fun a ha b _ hab hb => List.le_antisymm (hb ▸ not_lt_of_precedes hab) (notLess a ha)
  have orderedRest' := (List.pairwise_append.mp orderedRest).2.1
  obtain ⟨below, after, rfl, hbelow, apart⟩ :=
    exists_cut (P := fun f => parts <+: f.library.pathParts) orderedRest'
      fun a ha b _ hab hb =>
        prefix_of_between hb (notLess a (List.mem_append_right _ ha)) (not_lt_of_precedes hab)
  refine ⟨before, own, below, after, ?_, hown, fun f hf => ?_, fun f hf => ?_⟩
  · rw [hbefore]
    simp only [List.append_assoc]
  · exact ⟨hbelow f hf, others f (List.mem_append_left _ hf)⟩
  · rcases List.mem_append.mp hf with hf | hf
    · exact fun hprefix => not_lt_of_prefix hprefix (less f hf)
    · exact apart f hf

/-! ## What sorting makes of files -/

/-- **Sorting puts files in order**, by the components of their library's path and
then by their path within it, and loses none. In that order the files in and below
a library stand together, its own first. If what is compared tells files apart, it
does not matter how they come; and it tells apart all files of a tree that is grown
from plain paths that are all different. -/
theorem sort_outcome (files : List Located) :
    (sort files).Perm files ∧
      (sort files).Pairwise (fun a b =>
        a.library.pathParts < b.library.pathParts ∨
          a.library.pathParts = b.library.pathParts ∧ ¬ b.file.path < a.file.path) ∧
      (∀ path : Text, InBlock (Path.parts path) (sort files)) ∧
      ((files.map fun f => (f.library.pathParts, f.file.path)).Nodup →
        ∀ files', files'.Perm files → sort files' = sort files) ∧
      ∀ sources : List File, (∀ f ∈ sources, Path.Plain f.path) →
        (sources.map (·.path)).Nodup →
          ((Library.ofFiles sources).all.map fun f =>
            (f.library.pathParts, f.file.path)).Nodup := by
  refine ⟨sortBy_perm id files, ?_, fun path => sort_inBlock _ files, ?_, ?_⟩
  · exact (sortBy_ordered id files).imp fun h => precedes_iff.mp h
  · exact fun keys files' perm => (sort_of_perm perm.symm keys).symm
  · intro sources plain distinct
    have keys := Library.ofFiles_allKeys_nodup plain distinct
    rwa [Library.allAddresses, List.map_map] at keys

/-- A hyphen comes before the separator, and still a file of `a-b` comes after one
of `a/b`, which is below `a`. -/
theorem sort_outcome_hyphen :
    let file (id : Nat) (path : Text) : File := .ofPath id path [] true
    let sources := [file 0 "a-b/x.yml", file 1 "a/b/y.yml", file 2 "a/z.yml"]
    let beside : Located := ⟨file 0 "x.yml", .empty "a-b" "a-b"⟩
    let below : Located := ⟨file 1 "y.yml", .empty "b" "a/b"⟩
    let own : Located := ⟨file 2 "z.yml", .empty "a" "a"⟩
    sort [beside, below, own] = [own, below, beside] ∧
      ((Library.ofFiles sources).all.map fun f => (f.library.pathParts, f.file.path)).Nodup := by
  intro file sources beside below own
  have plain : ∀ f ∈ sources, Path.Plain f.path := by
    unfold Path.Plain
    decide
  obtain ⟨-, -, -, given, keys⟩ := sort_outcome [own, below, beside]
  have inOrder : sort [own, below, beside] = [own, below, beside] :=
    List.mergeSort_of_pairwise (by decide)
  have reversed : [beside, below, own].Perm [own, below, beside] :=
    List.reverse_perm [own, below, beside]
  refine ⟨?_, keys sources plain (by decide)⟩
  rw [given (by decide) _ reversed, inOrder]

end Located

end Stencil
