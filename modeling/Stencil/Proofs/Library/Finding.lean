import Mathlib.Data.List.Nodup
import Stencil.Proofs.Library.Grouping

/-!
# Libraries are found by their paths

The path of a library is joined from names while a tree grows, and is cut into
names again when the library is looked up. The two agree in a tree that is grown
from plain paths: each component of a library's path is the name of a library on
the way to it, and the libraries beside each other are called differently. A tree
of that sort is `Charted`. In such a tree every library is found by its path, so
different libraries have different paths.

What is found at a path is called by it, in its shortest spelling; and looking up
goes step by step, so that a path that is put together from two is looked up by
looking up the second where the first leads.

## Main definitions

* `Library.libraries` — the libraries of a tree.
* `Library.Charted` — trees in which paths tell the way.

## Main results

* `Library.Groups.charted` — trees that are grown from plain paths are charted.
* `Library.Charted.findParts`, `Library.Charted.nodup` — every library is found,
  and no two have the same path.
* `Library.path_of_findParts` — what the library at a path is called.
* `Library.find_append` — looking up in two steps.
* `Library.libraries_addressed` — libraries and their paths.
-/

namespace Stencil

namespace Library

/-! ## The libraries of a tree -/

mutual
/-- The libraries of a tree, private ones included, from the top down. -/
def libraries : Library → List Library
  | ⟨name, path, files, children⟩ => ⟨name, path, files, children⟩ :: librariesBelow children

/-- The libraries of some trees. -/
def librariesBelow : List Library → List Library
  | [] => []
  | lib :: libs => lib.libraries ++ librariesBelow libs
end

theorem libraries_eq (lib : Library) : lib.libraries = lib :: lib.children.flatMap libraries := by
  have below : ∀ libs : List Library, librariesBelow libs = libs.flatMap libraries := by
    intro libs
    induction libs with
    | nil => rfl
    | cons lib libs ih => rw [librariesBelow, ih, List.flatMap_cons]
  obtain ⟨name, path, files, children⟩ := lib
  rw [libraries, below]

/-- Whether paths tell the way in a tree: the path of each library has one more
component than that of the library above, which is its name, and no library beside
it has the same name. -/
inductive Charted : Library → Prop
  | intro {lib : Library} (parts : ∀ c ∈ lib.children, c.pathParts = lib.pathParts ++ [c.name])
      (distinct : (lib.children.map Library.name).Nodup)
      (below : ∀ c ∈ lib.children, Charted c) : Charted lib

/-- **Trees that group files of plain paths** are charted. -/
theorem Groups.charted {lib : Library} {placed : List (List Text × File)} (rooted : lib.Rooted)
    (groups : lib.Groups placed) (relative : Path.Relative lib.path)
    (plain : ∀ p ∈ placed, ∀ dir ∈ p.1, Path.IsComponent dir) : lib.Charted := by
  induction rooted generalizing placed with
  | @intro name path files children paths _ ih =>
      have component : ∀ c ∈ children, Path.IsComponent c.name := by
        intro c hc
        obtain ⟨p, hp, hname⟩ := groups.exists_placed hc
        exact plain p hp _ (List.mem_of_head? hname)
      have joined := fun c hc => Path.parts_join relative (component c hc)
      cases groups with
      | intro _ _ distinct inner =>
          refine .intro (fun c hc => ?_) distinct fun c hc => ?_
          · show Path.parts c.path = Path.parts path ++ [c.name]
            rw [paths c hc]
            exact (joined c hc).2
          · refine ih c hc (inner c hc) ?_ fun q hq dir hdir => ?_
            · rw [paths c hc]
              exact (joined c hc).1
            · obtain ⟨p, hp, hinside⟩ := List.mem_filterMap.mp hq
              exact plain p hp dir ((inside?_eq_some.mp hinside).1 ▸ List.mem_cons_of_mem _ hdir)

theorem ofFiles_charted {files : List File} (plain : ∀ f ∈ files, Path.Plain f.path) :
    (ofFiles files).Charted := by
  obtain ⟨rooted, top⟩ := ofFiles_rooted files
  refine (ofFiles_groups files).charted rooted (top ▸ nofun) fun p hp => ?_
  obtain ⟨f, hf, rfl⟩ := List.mem_map.mp hp
  exact Path.splitFile_of_plain (forall_apart plain f hf)

/-! ## Looking up -/

/-- A library is the first of its name if no other has the name. -/
private theorem find?_of_mem {libs : List Library} (distinct : (libs.map Library.name).Nodup)
    {c : Library} (mem : c ∈ libs) : libs.find? (·.name = c.name) = some c := by
  induction libs with
  | nil => cases mem
  | cons lib libs ih =>
      rw [List.map_cons, List.nodup_cons] at distinct
      rcases List.mem_cons.mp mem with rfl | mem
      · rw [List.find?_cons_of_pos (by simp)]
      · have hne : lib.name ≠ c.name := by
          intro heq
          exact distinct.1 (heq ▸ List.mem_map_of_mem mem)
        rw [List.find?_cons_of_neg (by simpa using hne)]
        exact ih distinct.2 mem

namespace Charted

variable {tree lib : Library}

/-- **Every library of a charted tree is found** by the components of its path that
come after those of the root. -/
theorem findParts (charted : tree.Charted) (mem : lib ∈ tree.libraries) :
    ∃ names, lib.pathParts = tree.pathParts ++ names ∧ findParts names tree = some lib := by
  induction charted with
  | @intro tree parts distinct _ ih =>
      rw [libraries_eq] at mem
      rcases List.mem_cons.mp mem with rfl | mem
      · exact ⟨[], (List.append_nil _).symm, rfl⟩
      · obtain ⟨c, hc, hmem⟩ := List.mem_flatMap.mp mem
        obtain ⟨names, hparts, hfound⟩ := ih c hc hmem
        refine ⟨c.name :: names, ?_, ?_⟩
        · rw [hparts, parts c hc, List.append_assoc]
          rfl
        · rw [Library.findParts, child, find?_of_mem distinct hc]
          exact hfound

/-- **No two libraries of a charted tree** have the same path. Those of different
trees below a library differ in the component that comes next. -/
theorem nodup (charted : tree.Charted) : (tree.libraries.map pathParts).Nodup := by
  induction charted with
  | @intro tree parts distinct below ih =>
      have inside : ∀ c ∈ tree.children, ∀ l ∈ c.libraries,
          tree.pathParts ++ [c.name] <+: l.pathParts := by
        intro c hc l hl
        obtain ⟨names, hparts, -⟩ := (below c hc).findParts hl
        exact ⟨names, by rw [hparts, parts c hc]⟩
      rw [libraries_eq, List.map_cons, List.nodup_cons, List.map_flatMap, List.nodup_flatMap]
      refine ⟨fun mem => ?_, ih, ?_⟩
      · obtain ⟨c, hc, hmem⟩ := List.mem_flatMap.mp mem
        obtain ⟨l, hl, hparts⟩ := List.mem_map.mp hmem
        have hlength := (inside c hc l hl).length_le
        rw [hparts, List.length_append] at hlength
        exact absurd hlength (Nat.not_succ_le_self _)
      · refine List.Pairwise.imp_of_mem ?_ (List.pairwise_map.mp distinct)
        intro c c' hc hc' hne parts hparts hparts'
        obtain ⟨l, hl, rfl⟩ := List.mem_map.mp hparts
        obtain ⟨l', hl', hsame⟩ := List.mem_map.mp hparts'
        have hprefix := inside c' hc' l' hl'
        rw [hsame] at hprefix
        have hparts : tree.pathParts ++ [c'.name] <+: tree.pathParts ++ [c.name] :=
          List.prefix_of_prefix_length_le hprefix (inside c hc l hl) (by simp)
        have heq := List.append_cancel_left (hparts.eq_of_length (by simp))
        exact hne (List.singleton_inj.mp heq).symm

end Charted

/-- **What is found** at some names is called by them, if paths in the tree are made
of names. -/
theorem path_of_findParts {tree lib : Library} {names : List Text} (rooted : tree.Rooted)
    (found : findParts names tree = some lib) : lib.path = Path.joins tree.path names := by
  induction names generalizing tree with
  | nil =>
      cases found
      rfl
  | cons name names ih =>
      cases rooted with
      | @intro own path files children paths below =>
          obtain ⟨c, hc, hfound⟩ := Option.bind_eq_some_iff.mp found
          have hmem : c ∈ children := List.mem_of_find?_eq_some hc
          have hname : c.name = name := by simpa using List.find?_some hc
          rw [ih (below c hmem) hfound, paths c hmem, hname]
          rfl

theorem findParts_append (names names' : List Text) (lib : Library) :
    findParts (names ++ names') lib = findParts names lib >>= findParts names' := by
  induction names generalizing lib with
  | nil => rfl
  | cons name names ih =>
      rw [List.cons_append, findParts, findParts]
      cases lib.child name with
      | none => rfl
      | some c => exact ih c

/-- **Looking up in two steps**: a path that is put together from two leads where the
second leads from where the first does. -/
theorem find_append {p q : Text} (hp : Path.Relative p) (hq : Path.Relative q) (given : p ≠ [])
    (lib : Library) : lib.find (p ++ "/" ++ q) = lib.find p >>= (find · q) := by
  have written : p ++ "/" ++ q = p ++ Path.separator :: q := List.append_assoc ..
  rw [find, written, Path.parts_append hp hq given, findParts_append]
  rfl

/-! ## Libraries and their paths -/

/-- **Libraries are addressed by their paths.** In a tree that is grown from plain
paths the root leads to every library, private ones included, by the path of that
library, and no two libraries have the same path. What a relative path leads to has
the path that its components are written as. And in every tree, a path that is put
together from two relative ones leads where the second leads from where the first
does, and nowhere if either does not lead on. -/
theorem libraries_addressed :
    (∀ files : List File, (∀ f ∈ files, Path.Plain f.path) →
      (∀ lib ∈ (ofFiles files).libraries, (ofFiles files).find lib.path = some lib) ∧
        ((ofFiles files).libraries.map Library.path).Nodup ∧
        ∀ p lib, Path.Relative p → (ofFiles files).find p = some lib →
          lib.path = Text.joinWith "/" (Path.parts p)) ∧
      ∀ (lib : Library) (p q : Text), Path.Relative p → Path.Relative q → p ≠ [] →
        lib.find (p ++ "/" ++ q) = lib.find p >>= (find · q) := by
  refine ⟨fun files plain => ?_, fun lib p q hp hq given => find_append hp hq given lib⟩
  have charted := ofFiles_charted plain
  obtain ⟨rooted, top⟩ := ofFiles_rooted files
  refine ⟨fun lib mem => ?_, ?_, fun p lib relative found => ?_⟩
  · obtain ⟨names, hparts, hfound⟩ := charted.findParts mem
    have hroot : (ofFiles files).pathParts = [] := by rw [pathParts, top]; rfl
    rw [hroot, List.nil_append] at hparts
    show findParts lib.pathParts _ = some lib
    rw [hparts, hfound]
  · have nodup := charted.nodup
    have hmap : (ofFiles files).libraries.map pathParts =
        ((ofFiles files).libraries.map Library.path).map Path.parts := by
      rw [List.map_map]
      rfl
    exact (hmap ▸ nodup).of_map
  · have called := path_of_findParts rooted found
    have counted : ∀ part ∈ Path.parts p, part ≠ [] := by
      rw [relative.parts_eq]
      rintro _ hpart rfl
      simp [Path.isPart] at hpart
    rw [called, top, Path.joins_nil counted]

/-- Two libraries called `b`, one of them below a private library, which is found
under its path however the path is spelled. -/
theorem libraries_addressed_private :
    let file (id : Nat) (path : Text) : File := .ofPath id path [] true
    let files := [file 0 "a/_lib/b/x.yml", file 1 "b/y.yml", file 2 "z.yml"]
    let tree := ofFiles files
    let outer : Text := "a"
    let inner : Text := "_lib/b"
    tree.libraries.map Library.path = [("" : Text), "a", "a/_lib", "a/_lib/b", "b"] ∧
      (∀ lib ∈ tree.libraries, tree.find lib.path = some lib) ∧
      (∃ lib, tree.find "./a//_lib/" = some lib ∧ lib.path = ("a/_lib" : Text)) ∧
      tree.find (outer ++ "/" ++ inner) = tree.find outer >>= (find · inner) := by
  intro file files tree outer inner
  have plain : ∀ f ∈ files, Path.Plain f.path := by
    unfold Path.Plain
    decide
  obtain ⟨grown, steps⟩ := libraries_addressed
  obtain ⟨found, -, called⟩ := grown files plain
  refine ⟨by decide +kernel, found, ?_,
    steps tree outer inner (by decide) (by decide) (by decide)⟩
  have there : (tree.find "./a//_lib/").isSome = true := by decide
  obtain ⟨lib, hlib⟩ := Option.isSome_iff_exists.mp there
  refine ⟨lib, hlib, ?_⟩
  rw [called "./a//_lib/" lib (by decide) hlib]
  decide

end Library

end Stencil
