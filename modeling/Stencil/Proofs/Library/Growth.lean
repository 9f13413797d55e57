import Mathlib.Data.List.Basic
import Stencil.Proofs.Library.Apart
import Stencil.Proofs.Library.Paths

/-!
# How a tree grows

Placing a file adds one file to a tree and takes none away. What the tree
makes accessible afterwards are the files that were accessible before and
the new one, unless one of its directories is private. Since the order of
libraries depends on what was placed first, this is said up to order.

Two files of one tree are told apart by where they are: by the path of the
library that owns them, and the file. The libraries themselves change with
every file that is placed below them.

## Main definitions

* `Located.address` — where a file is.
* `Library.Rooted` — trees in which paths are made of names.
* `Library.seat` — the address of a file in a tree.
* `Library.home?` — the address at which a file becomes accessible.

## Main results

* `Library.place_addresses` — the step: placing one file.
* `Library.ofFiles_addresses`, `Library.ofFiles_allAddresses` — the accessible
  files of a tree, and all files, up to order.
* `Library.ofFiles_addresses_perm` — they do not depend on the order in which
  files that are given once are placed.
-/

namespace Stencil

/-- Where a file is: the path of the library that owns it, and the file. -/
def Located.address (l : Located) : Text × File := (l.library.path, l.file)

namespace Library

/-- Whether the paths in a tree are made of names: the path of every library
is that of the one above with its name below it. -/
inductive Rooted : Library → Prop
  | intro {name path : Text} {files : List File} {children : List Library}
      (paths : ∀ c ∈ children, c.path = Path.join path c.name)
      (below : ∀ c ∈ children, Rooted c) : Rooted ⟨name, path, files, children⟩

theorem empty_rooted (name path : Text) : (empty name path).Rooted := .intro nofun nofun

/-- The addresses of accessible files. -/
def addresses (lib : Library) : List (Text × File) := lib.accessible.map Located.address

/-- The addresses of the files that some libraries make accessible to the one
above. -/
def addressesBelow (libs : List Library) : List (Text × File) :=
  (accessibleBelow libs).map Located.address

theorem addresses_eq (lib : Library) :
    lib.addresses = lib.files.map (lib.path, ·) ++ addressesBelow lib.children := by
  obtain ⟨name, path, files, children⟩ := lib
  rw [addresses, accessible, List.map_append, List.map_map]
  rfl

@[simp] theorem empty_addresses (name path : Text) : (empty name path).addresses = [] := by
  rw [addresses_eq]
  rfl

theorem addressesBelow_eq (libs : List Library) :
    addressesBelow libs =
      libs.flatMap fun lib => if lib.isPrivate then [] else lib.addresses := by
  induction libs with
  | nil => rfl
  | cons lib libs ih =>
      rw [addressesBelow, accessibleBelow, List.map_append, List.flatMap_cons, ← ih]
      split <;> rfl

/-- The addresses of all files, private ones included. -/
def allAddresses (lib : Library) : List (Text × File) := lib.all.map Located.address

theorem allAddresses_eq (lib : Library) :
    lib.allAddresses = lib.files.map (lib.path, ·) ++ lib.children.flatMap allAddresses := by
  have below : ∀ libs : List Library,
      (allBelow libs).map Located.address = libs.flatMap allAddresses := by
    intro libs
    induction libs with
    | nil => rfl
    | cons lib libs ih =>
        rw [allBelow, List.map_append, ih]
        rfl
  obtain ⟨name, path, files, children⟩ := lib
  rw [allAddresses, all, List.map_append, List.map_map, below]
  rfl

@[simp] theorem empty_allAddresses (name path : Text) : (empty name path).allAddresses = [] := by
  rw [allAddresses_eq]
  rfl

@[simp] theorem place_name (f : File) (dirs : List Text) (lib : Library) :
    (lib.place f dirs).name = lib.name := by cases dirs <;> rfl

@[simp] theorem place_path (f : File) (dirs : List Text) (lib : Library) :
    (lib.place f dirs).path = lib.path := by cases dirs <;> rfl

/-! ## Placing one file -/

section Change

variable {name : Text} {change : Library → Library} {fresh : Library} {libs : List Library}

/-- What holds of some libraries holds of them after a change, if the change
keeps it and makes it true of the new library. -/
private theorem forall_changeNamed {P : Library → Prop} (new : P (change fresh))
    (keep : ∀ lib, P lib → P (change lib)) (all : ∀ lib ∈ libs, P lib) :
    ∀ lib ∈ changeNamed name change fresh libs, P lib := by
  induction libs with
  | nil =>
      intro lib hlib
      rw [List.mem_singleton.mp hlib]
      exact new
  | cons first libs ih =>
      have hrest := fun lib hlib => all lib (List.mem_cons_of_mem _ hlib)
      intro lib hlib
      rw [changeNamed] at hlib
      split at hlib <;> rcases List.mem_cons.mp hlib with rfl | hlib
      · exact keep first (all first (List.mem_cons_self ..))
      · exact hrest lib hlib
      · exact all _ (List.mem_cons_self ..)
      · exact ih hrest lib hlib

/-- A change that adds something to the library of a name adds it to what all
libraries have together. -/
private theorem changeNamed_flatMap {α : Type} {g : Library → List α} {extra : List α}
    (new : (g (change fresh)).Perm extra)
    (add : ∀ lib ∈ libs, lib.name = name → (g (change lib)).Perm (extra ++ g lib)) :
    ((changeNamed name change fresh libs).flatMap g).Perm (extra ++ libs.flatMap g) := by
  induction libs with
  | nil =>
      rw [changeNamed, List.flatMap_singleton]
      exact new.trans (by rw [List.flatMap_nil, List.append_nil])
  | cons first libs ih =>
      have hrest := ih fun lib hlib => add lib (List.mem_cons_of_mem _ hlib)
      rw [changeNamed]
      split
      · next hfirst =>
        have hadd := add first (List.mem_cons_self ..) hfirst
        rw [List.flatMap_cons, List.flatMap_cons, ← List.append_assoc]
        exact hadd.append_right _
      · rw [List.flatMap_cons, List.flatMap_cons]
        exact (hrest.append_left _).trans (List.perm_append_comm_assoc ..)

/-- A change that adds addresses to the library of a name adds them to what
is accessible from above, unless the name is private. -/
private theorem changeNamed_addresses {extra : List (Text × File)}
    (keep : ∀ lib, (change lib).name = lib.name) (freshName : fresh.name = name)
    (freshAddresses : fresh.addresses = [])
    (new : (change fresh).addresses.Perm (extra ++ fresh.addresses))
    (add : ∀ lib ∈ libs, lib.name = name → (change lib).addresses.Perm (extra ++ lib.addresses)) :
    (addressesBelow (changeNamed name change fresh libs)).Perm
      ((if name = privateName then [] else extra) ++ addressesBelow libs) := by
  rw [freshAddresses, List.append_nil] at new
  rw [addressesBelow_eq, addressesBelow_eq]
  refine changeNamed_flatMap ?_ ?_
  · rw [isPrivate, keep, freshName]
    by_cases hname : name = privateName
    · simp [hname]
    · simpa [hname] using new
  · intro lib hlib hlibName
    rw [isPrivate, isPrivate, keep, hlibName]
    by_cases hname : name = privateName
    · simp [hname]
    · simpa [hname] using add lib hlib hlibName

end Change

/-- Placing a file keeps paths made of names. -/
theorem place_rooted (f : File) (dirs : List Text) {lib : Library} (h : lib.Rooted) :
    (lib.place f dirs).Rooted := by
  induction dirs generalizing lib with
  | nil =>
      cases h with
      | intro paths below => exact .intro paths below
  | cons dir dirs ih =>
      cases h with
      | @intro name path files children paths below =>
          let fresh := empty dir (Path.join path dir)
          have hall : ∀ c ∈ changeNamed dir (place f dirs) fresh children,
              c.path = Path.join path c.name ∧ c.Rooted :=
            forall_changeNamed ⟨by simp [fresh, empty], ih (empty_rooted _ _)⟩
              (fun c hc => ⟨by simpa using hc.1, ih hc.2⟩)
              (fun c hc => ⟨paths c hc, below c hc⟩)
          exact .intro (fun c hc => (hall c hc).1) (fun c hc => (hall c hc).2)

/-- The address of a file placed below some directories, if it becomes
accessible. -/
def spot? (f : File) (path : Text) (dirs : List Text) : Option (Text × File) :=
  if privateName ∈ dirs then none else some (Path.joins path dirs, f)

/-- **Placing one file** adds its address, and nothing else changes. The
induction follows the directories; the library that is changed below is
rooted again, and its path is one directory longer. -/
theorem place_addresses (f : File) (dirs : List Text) {lib : Library} (h : lib.Rooted) :
    (lib.place f dirs).addresses.Perm ((spot? f lib.path dirs).toList ++ lib.addresses) := by
  induction dirs generalizing lib with
  | nil =>
      have hspot : spot? f lib.path [] = some (lib.path, f) := by simp [spot?, Path.joins]
      rw [hspot, addresses_eq, addresses_eq]
      show ((lib.files ++ [f]).map (lib.path, ·) ++ addressesBelow lib.children).Perm _
      rw [List.map_append, List.append_assoc]
      exact List.perm_middle
  | cons dir dirs ih =>
      cases h with
      | @intro name path files children paths below =>
          let fresh := empty dir (Path.join path dir)
          let extra := (spot? f (Path.join path dir) dirs).toList
          have hbelow : (addressesBelow (changeNamed dir (place f dirs) fresh children)).Perm
              ((if dir = privateName then [] else extra) ++ addressesBelow children) := by
            refine changeNamed_addresses (fun lib => place_name f dirs lib) rfl
              (empty_addresses _ _) (ih (empty_rooted _ _)) ?_
            intro lib hlib hname
            have hih := ih (below lib hlib)
            rwa [paths lib hlib, hname] at hih
          have hspot : (spot? f path (dir :: dirs)).toList =
              if dir = privateName then [] else (spot? f (Path.join path dir) dirs).toList := by
            by_cases hdir : dir = privateName
            · simp [spot?, hdir]
            · simp [spot?, hdir, Ne.symm hdir, Path.joins]
          rw [addresses_eq, addresses_eq, hspot]
          exact (hbelow.append_left _).trans (List.perm_append_comm_assoc ..)

/-- Placing one file adds its address to those of all files, whatever its
directories are called. -/
theorem place_allAddresses (f : File) (dirs : List Text) {lib : Library} (h : lib.Rooted) :
    (lib.place f dirs).allAddresses.Perm
      ((Path.joins lib.path dirs, f) :: lib.allAddresses) := by
  induction dirs generalizing lib with
  | nil =>
      rw [allAddresses_eq, allAddresses_eq]
      show ((lib.files ++ [f]).map (lib.path, ·) ++ lib.children.flatMap allAddresses).Perm _
      rw [List.map_append, List.append_assoc]
      exact List.perm_middle
  | cons dir dirs ih =>
      cases h with
      | @intro name path files children paths below =>
          let fresh := empty dir (Path.join path dir)
          let extra := [(Path.joins (Path.join path dir) dirs, f)]
          have hbelow : ((changeNamed dir (place f dirs) fresh children).flatMap allAddresses).Perm
              (extra ++ children.flatMap allAddresses) := by
            refine changeNamed_flatMap (ih (empty_rooted _ _)) ?_
            intro lib hlib hname
            have hih := ih (below lib hlib)
            rwa [paths lib hlib, hname] at hih
          rw [allAddresses_eq, allAddresses_eq]
          exact (hbelow.append_left _).trans List.perm_middle

/-! ## Placing several files -/

/-- What placing each file adds, placing all of them adds together. -/
private theorem foldl_placeByPath_perm {α : Type} {g : Library → List α} {added : File → List α}
    (step : ∀ (f : File) (lib : Library), lib.Rooted → lib.path = [] →
      (g (lib.placeByPath f)).Perm (added f ++ g lib)) (files : List File) :
    ∀ lib : Library, lib.Rooted → lib.path = [] →
      (g (files.foldl placeByPath lib)).Perm (files.flatMap added ++ g lib) := by
  induction files with
  | nil => intro lib _ _; exact List.Perm.refl _
  | cons f files ih =>
      intro lib hrooted hpath
      have hrest := ih (lib.placeByPath f) (place_rooted _ _ hrooted)
        ((place_path _ _ _).trans hpath)
      rw [List.flatMap_cons, List.append_assoc]
      refine hrest.trans (((step f lib hrooted hpath).append_left _).trans ?_)
      exact List.perm_append_comm_assoc ..

/-- The address at which a file becomes accessible in a tree, if it does. -/
def home? (f : File) : Option (Text × File) :=
  spot? { f with path := (Path.splitFile f.path).2 } [] (Path.splitFile f.path).1

/-- **The accessible files of a tree**, up to their order: those of its files
that have no private directory. -/
theorem ofFiles_addresses (files : List File) :
    (ofFiles files).addresses.Perm ((apart files).filterMap home?) := by
  have step : ∀ (f : File) (lib : Library), lib.Rooted → lib.path = [] →
      (lib.placeByPath f).addresses.Perm ((home? f).toList ++ lib.addresses) := by
    intro f lib hrooted hpath
    have hone := place_addresses { f with path := (Path.splitFile f.path).2 }
      (Path.splitFile f.path).1 hrooted
    rwa [hpath] at hone
  have h := foldl_placeByPath_perm step (apart files) (empty [] []) (empty_rooted _ _) rfl
  rwa [empty_addresses, List.append_nil, ← List.filterMap_eq_flatMap_toList] at h

/-- The address of a file in a tree. -/
def seat (f : File) : Text × File :=
  (Path.joins [] (Path.splitFile f.path).1, { f with path := (Path.splitFile f.path).2 })

/-- **All files of a tree**, up to their order: those that it is grown from. -/
theorem ofFiles_allAddresses (files : List File) :
    (ofFiles files).allAddresses.Perm ((apart files).map seat) := by
  have step : ∀ (f : File) (lib : Library), lib.Rooted → lib.path = [] →
      (lib.placeByPath f).allAddresses.Perm ([seat f] ++ lib.allAddresses) := by
    intro f lib hrooted hpath
    have hone := place_allAddresses { f with path := (Path.splitFile f.path).2 }
      (Path.splitFile f.path).1 hrooted
    rwa [hpath] at hone
  have h := foldl_placeByPath_perm step (apart files) (empty [] []) (empty_rooted _ _) rfl
  rwa [empty_allAddresses, List.append_nil, ← List.map_eq_flatMap] at h

/-- **The order of files does not matter** for which are accessible, and
where, if each of them is given once. -/
theorem ofFiles_addresses_perm {files files' : List File} (once : files.Nodup)
    (h : files.Perm files') : (ofFiles files).addresses.Perm (ofFiles files').addresses := by
  have hfiles := ofFiles_addresses files
  have hfiles' := ofFiles_addresses files'
  rw [apart_of_nodup once] at hfiles
  rw [apart_of_nodup (h.nodup_iff.mp once)] at hfiles'
  exact hfiles.trans ((h.filterMap home?).trans hfiles'.symm)

end Library

end Stencil
