import Stencil.Proofs.Library.Growth
import Stencil.Proofs.Library.Within

/-!
# How a tree groups its files

A tree is grown by placing one file after another, and each library in it ends
up with what was placed below its directories, in order: the files whose
directories end there, and one library for each directory that comes next, in
the order in which they first come. `Groups` says so of a tree and what was
placed in it. Placing one more file keeps it, so it holds of every tree that is
grown from files; and it is handed down to every library within the tree.

A file in a tree keeps the part of its path below its directory. The path from
the root gives the whole file back, so nothing is lost: the tree has the files
that it is grown from, each where its path says. Only the number of a file may be
another one, if the file is given several times.

## Main definitions

* `Located.whole` — a file of a tree with its path from the root.
* `File.directories`, `File.directoryBelow?` — the directories of a file, and
  the one that comes next after some of them.
* `Library.Groups` — trees that group what was placed in them.

## Main results

* `Library.Groups.place` — the step: placing one file.
* `Library.ofFiles_groups` — trees group the files that they are grown from.
* `Library.Groups.within` — and so does every library within them.
* `ofFiles_lossless` — what a tree has of its files.
-/

namespace Stencil

/-- A file of a tree as it was before it was placed: with its path from the
root. -/
def Located.whole (l : Located) : File := { l.file with path := l.path }

/-- The directories of a file: all components of its path but the last. -/
def File.directories (f : File) : List Text := (f.path.splitOn Path.separator).dropLast

/-- The directory of a file that comes next after some directories, if the file
is below them. -/
def File.directoryBelow? (above : List Text) (f : File) : Option Text :=
  if above <+: f.directories then f.directories[above.length]? else none

namespace Library

/-! ## What is placed where -/

/-- Something placed below directories of which the first has a name, with the
name taken off. -/
def inside? (name : Text) : List Text × File → Option (List Text × File)
  | (dir :: dirs, f) => if dir = name then some (dirs, f) else none
  | ([], _) => none

/-- Something placed below directories that begin with some names, with the
names taken off. -/
def under? : List Text → List Text × File → Option (List Text × File)
  | [], p => some p
  | name :: names, p => (inside? name p).bind (under? names)

/-- The file that is placed in no further directory. -/
def own? : List Text × File → Option File
  | ([], f) => some f
  | (_ :: _, _) => none

theorem inside?_eq_some {name : Text} {p q : List Text × File} :
    inside? name p = some q ↔ p.1 = name :: q.1 ∧ p.2 = q.2 := by
  obtain ⟨dirs, f⟩ := p
  cases dirs with
  | nil => simp [inside?]
  | cons dir dirs => by_cases hdir : dir = name <;> simp [inside?, hdir, Prod.ext_iff]

theorem under?_eq_some {names : List Text} {p q : List Text × File} :
    under? names p = some q ↔ p.1 = names ++ q.1 ∧ p.2 = q.2 := by
  induction names generalizing p with
  | nil => simp [under?, Prod.ext_iff]
  | cons name names ih =>
      obtain ⟨dirs, f⟩ := p
      cases dirs with
      | nil => simp [under?, inside?]
      | cons dir dirs =>
          by_cases hdir : dir = name
          · simp [under?, inside?, hdir, ih]
          · simp [under?, inside?, hdir]

theorem under?_own (names : List Text) (p : List Text × File) :
    (under? names p).bind own? = if p.1 = names then some p.2 else none := by
  cases hunder : under? names p with
  | none =>
      have hne : p.1 ≠ names := by
        rintro rfl
        have hsome : under? p.1 p = some ([], p.2) := under?_eq_some.mpr ⟨by simp, rfl⟩
        rw [hunder] at hsome
        cases hsome
      rw [if_neg hne]
      rfl
  | some q =>
      obtain ⟨hdirs, hfile⟩ := under?_eq_some.mp hunder
      obtain ⟨rest, f⟩ := q
      cases rest with
      | nil => simp_all [own?]
      | cons dir rest => simp_all [own?]

theorem under?_head (names : List Text) (p : List Text × File) :
    (under? names p).bind (·.1.head?) = if names <+: p.1 then p.1[names.length]? else none := by
  cases hunder : under? names p with
  | none =>
      have hne : ¬ names <+: p.1 := by
        rintro ⟨rest, hrest⟩
        have hsome : under? names p = some (rest, p.2) := under?_eq_some.mpr ⟨hrest.symm, rfl⟩
        rw [hunder] at hsome
        cases hsome
      rw [if_neg hne]
      rfl
  | some q =>
      obtain ⟨hdirs, -⟩ := under?_eq_some.mp hunder
      have hprefix : names <+: p.1 := ⟨q.1, hdirs.symm⟩
      rw [if_pos hprefix, hdirs, List.getElem?_append_right (Nat.le_refl _), Nat.sub_self]
      exact List.head?_eq_getElem?

/-! ## Trees that group -/

/-- Whether a tree groups what is placed in it. Its own files are those placed
in no further directory; its libraries are called as the first directories of
the others, each called differently, in the order in which the names first
come; and each groups what is placed below its name. -/
inductive Groups : Library → List (List Text × File) → Prop
  | intro {name path : Text} {files : List File} {children : List Library}
      {placed : List (List Text × File)} (own : files = placed.filterMap own?)
      (names : children.map Library.name = (placed.filterMap (·.1.head?)).eraseDups)
      (distinct : (children.map Library.name).Nodup)
      (inner : ∀ c ∈ children, Groups c (placed.filterMap (inside? c.name))) :
      Groups ⟨name, path, files, children⟩ placed

theorem empty_groups (name path : Text) : (empty name path).Groups [] :=
  .intro rfl rfl List.nodup_nil nofun

/-- A library is called as the first directory of something placed. -/
theorem Groups.exists_placed {lib c : Library} {placed : List (List Text × File)}
    (h : lib.Groups placed) (mem : c ∈ lib.children) :
    ∃ p ∈ placed, p.1.head? = some c.name := by
  cases h with
  | intro _ names _ _ =>
      have hname : c.name ∈ (placed.filterMap (·.1.head?)).eraseDups :=
        names ▸ List.mem_map_of_mem mem
      exact List.mem_filterMap.mp (List.mem_eraseDups.mp hname)

section Change

variable {name : Text} {change : Library → Library} {fresh : Library}

/-- The names of libraries after a change that keeps names: a new one comes
last. -/
private theorem changeNamed_names (keep : ∀ lib, (change lib).name = lib.name)
    (freshName : fresh.name = name) (libs : List Library) :
    (changeNamed name change fresh libs).map Library.name =
      if name ∈ libs.map Library.name then libs.map Library.name
      else libs.map Library.name ++ [name] := by
  induction libs with
  | nil => simp [changeNamed, keep, freshName]
  | cons lib libs ih =>
      by_cases hlib : lib.name = name
      · simp [changeNamed, hlib, keep]
      · rw [changeNamed, if_neg hlib, List.map_cons, ih, List.map_cons]
        by_cases hmem : name ∈ libs.map Library.name
        · rw [if_pos hmem, if_pos (List.mem_cons_of_mem _ hmem)]
        · rw [if_neg hmem, if_neg (by simpa [Ne.symm hlib] using hmem)]
          rfl

/-- A library after a change is one of another name, or the one of the name
after the change, or a new one. -/
private theorem mem_changeNamed {libs : List Library} (distinct : (libs.map Library.name).Nodup)
    {c : Library} (h : c ∈ changeNamed name change fresh libs) :
    (c ∈ libs ∧ c.name ≠ name) ∨ (∃ lib ∈ libs, lib.name = name ∧ c = change lib) ∨
      name ∉ libs.map Library.name ∧ c = change fresh := by
  induction libs with
  | nil => exact .inr (.inr ⟨List.not_mem_nil, List.mem_singleton.mp h⟩)
  | cons lib libs ih =>
      rw [List.map_cons, List.nodup_cons] at distinct
      obtain ⟨hnew, hdistinct⟩ := distinct
      rw [changeNamed] at h
      split at h
      · next hlib =>
        rcases List.mem_cons.mp h with rfl | h
        · exact .inr (.inl ⟨lib, List.mem_cons_self .., hlib, rfl⟩)
        · refine .inl ⟨List.mem_cons_of_mem _ h, ?_⟩
          rintro hc
          rw [hlib, ← hc] at hnew
          exact hnew (List.mem_map_of_mem h)
      · next hlib =>
        rcases List.mem_cons.mp h with rfl | h
        · exact .inl ⟨List.mem_cons_self .., hlib⟩
        · rcases ih hdistinct h with ⟨hc, hother⟩ | ⟨l, hl, hname, rfl⟩ | ⟨hmissing, rfl⟩
          · exact .inl ⟨List.mem_cons_of_mem _ hc, hother⟩
          · exact .inr (.inl ⟨l, List.mem_cons_of_mem _ hl, hname, rfl⟩)
          · exact .inr (.inr ⟨by simpa [Ne.symm hlib] using hmissing, rfl⟩)

end Change

/-- The names that first come in a list with one more at its end. -/
private theorem eraseDups_concat (names : List Text) (name : Text) :
    (names ++ [name]).eraseDups =
      if name ∈ names then names.eraseDups else names.eraseDups ++ [name] := by
  rw [List.eraseDups_append]
  by_cases hname : name ∈ names
  · simp [hname, List.removeAll]
  · simp [hname, List.removeAll, List.eraseDups_cons]

/-- **Placing one file** keeps a tree grouped, with the file placed last. The
induction follows the directories; only the library of the first one
changes. -/
theorem Groups.place {lib : Library} {placed : List (List Text × File)} (h : lib.Groups placed)
    (f : File) (dirs : List Text) : (lib.place f dirs).Groups (placed ++ [(dirs, f)]) := by
  induction dirs generalizing lib placed with
  | nil =>
      cases h with
      | @intro name path files children _ own names distinct inner =>
          refine .intro ?_ ?_ distinct fun c hc => ?_
          · rw [List.filterMap_append, ← own]
            rfl
          · rw [List.filterMap_append]
            exact names.trans (congrArg List.eraseDups (List.append_nil _).symm)
          · rw [List.filterMap_append]
            show c.Groups (placed.filterMap (inside? c.name) ++ [])
            rw [List.append_nil]
            exact inner c hc
  | cons dir dirs ih =>
      cases h with
      | @intro name path files children _ own names distinct inner =>
          let fresh := empty dir (Path.join path dir)
          have hnames : (changeNamed dir (Library.place f dirs) fresh children).map Library.name =
              if dir ∈ children.map Library.name then children.map Library.name
              else children.map Library.name ++ [dir] :=
            changeNamed_names (place_name f dirs) (show fresh.name = dir from rfl) children
          have hmem : dir ∈ children.map Library.name ↔ dir ∈ placed.filterMap (·.1.head?) := by
            rw [names, List.mem_eraseDups]
          show Groups ⟨name, path, files,
            changeNamed dir (Library.place f dirs) fresh children⟩ _
          refine .intro ?_ ?_ ?_ fun c hc => ?_
          · rw [List.filterMap_append, ← own]
            exact (List.append_nil _).symm
          · rw [hnames, List.filterMap_append]
            show _ = (placed.filterMap (·.1.head?) ++ [dir]).eraseDups
            rw [eraseDups_concat, ← names]
            simp only [hmem]
          · rw [hnames]
            by_cases hdir : dir ∈ children.map Library.name
            · rw [if_pos hdir]
              exact distinct
            · rw [if_neg hdir, ← List.concat_eq_append]
              exact distinct.concat hdir
          · rw [List.filterMap_append]
            rcases mem_changeNamed distinct hc with ⟨hc, hother⟩ | ⟨l, hl, rfl, rfl⟩ | ⟨hnew, rfl⟩
            · have hskipped : [(dir :: dirs, f)].filterMap (inside? c.name) = [] := by
                simp [inside?, Ne.symm hother]
              rw [hskipped, List.append_nil]
              exact inner c hc
            · have hplaced := ih (inner l hl)
              simpa [inside?] using hplaced
            · have hnone : placed.filterMap (inside? dir) = [] := by
                rw [List.filterMap_eq_nil_iff]
                rintro ⟨ds, g⟩ hp
                cases ds with
                | nil => rfl
                | cons d ds =>
                    have hd : d ≠ dir := by
                      rintro rfl
                      exact hnew (hmem.mpr (List.mem_filterMap.mpr ⟨_, hp, rfl⟩))
                    exact if_neg hd
              have hplaced := ih (empty_groups dir (Path.join path dir))
              simpa [inside?, fresh, empty, hnone] using hplaced

/-! ## Placing several files -/

/-- How a file is placed: below which directories, and with what is left of its
path. -/
def cut (f : File) : List Text × File :=
  ((Path.splitFile f.path).1, { f with path := (Path.splitFile f.path).2 })

/-- **Trees group the files** that they are grown from. -/
theorem ofFiles_groups (files : List File) : (ofFiles files).Groups ((apart files).map cut) := by
  suffices hsuff : ∀ (lib : Library) (placed : List (List Text × File)), lib.Groups placed →
      ((apart files).foldl placeByPath lib).Groups (placed ++ (apart files).map cut) from
    hsuff (empty [] []) [] (empty_groups _ _)
  induction apart files with
  | nil =>
      intro lib placed h
      rw [List.map_nil, List.append_nil]
      exact h
  | cons f files ih =>
      intro lib placed h
      have hrest := ih (lib.placeByPath f) (placed ++ [cut f]) (h.place _ _)
      rwa [List.append_assoc] at hrest

theorem ofFiles_rooted (files : List File) :
    (ofFiles files).Rooted ∧ (ofFiles files).path = [] := by
  suffices hsuff : ∀ lib : Library, lib.Rooted → lib.path = [] →
      ((apart files).foldl placeByPath lib).Rooted ∧
        ((apart files).foldl placeByPath lib).path = [] from
    hsuff _ (empty_rooted _ _) rfl
  induction apart files with
  | nil => exact fun _ hrooted hpath => ⟨hrooted, hpath⟩
  | cons f files ih =>
      exact fun lib hrooted hpath =>
        ih _ (place_rooted _ _ hrooted) ((place_path _ _ _).trans hpath)

/-- **Every library within a tree** groups what is placed below its path, and
its path is made of directories of what is placed in the tree. -/
theorem Groups.within {tree lib : Library} (hw : lib.Within tree) :
    ∀ {placed : List (List Text × File)}, tree.Groups placed → tree.Rooted →
      ∃ names, lib.path = Path.joins tree.path names ∧
        lib.Groups (placed.filterMap (under? names)) ∧
          ∀ name ∈ names, ∃ p ∈ placed, name ∈ p.1 := by
  induction hw with
  | here =>
      intro placed hgroups _
      refine ⟨[], rfl, ?_, nofun⟩
      have hall : placed.filterMap (under? []) = placed := List.filterMap_some
      rwa [hall]
  | @inside name path files children child mem _ ih =>
      intro placed hgroups hrooted
      obtain ⟨p, hp, hname⟩ := hgroups.exists_placed mem
      cases hgroups with
      | intro own names distinct inner =>
          cases hrooted with
          | intro paths below =>
              obtain ⟨rest, hpath, hlib, hrest⟩ := ih (inner child mem) (below child mem)
              refine ⟨child.name :: rest, ?_, ?_, List.forall_mem_cons.mpr ⟨?_, ?_⟩⟩
              · rw [hpath, paths child mem]
                rfl
              · rw [List.filterMap_filterMap] at hlib
                exact hlib
              · exact ⟨p, hp, List.mem_of_head? hname⟩
              · intro dir hdir
                obtain ⟨q, hq, hmem⟩ := hrest dir hdir
                obtain ⟨p, hp, hinside⟩ := List.mem_filterMap.mp hq
                exact ⟨p, hp, (inside?_eq_some.mp hinside).1 ▸ List.mem_cons_of_mem _ hmem⟩

end Library

/-- The file at an address as it was before it was placed. -/
def Library.unseat (a : Text × File) : File := { a.2 with path := Path.join a.1 a.2.path }

/-- The address of a file in a tree leads back to the file, if its path is a
relative one. -/
theorem Library.unseat_seat_of_relative {f : File} (relative : Path.Relative f.path) :
    unseat (seat f) = f := by
  have hback : Path.join (seat f).1 (seat f).2.path = f.path := relative.join_splitFile
  show { f with path := Path.join (seat f).1 (seat f).2.path } = f
  rw [hback]

/-- The directories of files do not depend on their numbers. -/
theorem Library.directoriesBelow_apart (above : List Text) (files : List File) :
    (apart files).filterMap (File.directoryBelow? above) =
      files.filterMap (File.directoryBelow? above) := by
  have byPath (fs : List File) : fs.filterMap (File.directoryBelow? above) =
      (fs.map File.path).filterMap fun p =>
        File.directoryBelow? above (.ofPath 0 p [] true) := by
    rw [List.filterMap_map]
    rfl
  rw [byPath, byPath, apart_paths]

/-- All files of a tree, each with its path from the root, are the files that it
is grown from. -/
theorem Library.whole_perm_of_relative {files : List File}
    (relative : ∀ f ∈ files, Path.Relative f.path) :
    ((ofFiles files).all.map Located.whole).Perm (apart files) := by
  have hperm := (ofFiles_allAddresses files).map unseat
  rw [allAddresses, List.map_map, List.map_map] at hperm
  have hback : (apart files).map (unseat ∘ seat) = apart files := by
    conv_rhs => rw [← List.map_id (apart files)]
    exact List.map_congr_left fun f hf => unseat_seat_of_relative (forall_apart relative f hf)
  rwa [hback] at hperm

/-! ## Files with plain paths -/

section Plain

variable {f : File} (plain : Path.Plain f.path)
include plain

theorem File.directories_of_plain : f.directories = (Library.cut f).1 := by
  rw [directories, Path.splitOn_of_plain plain, List.dropLast_concat]
  rfl

/-- A plain path leads below a directory if it has one. -/
theorem Library.isBelow_of_plain : isBelow f = !f.directories.isEmpty := by
  rw [File.directories_of_plain plain]
  rfl

theorem Library.unseat_seat : unseat (seat f) = f := unseat_seat_of_relative plain.relative

/-- A file is called the same where it is placed. -/
theorem Library.name_cut : (Library.cut f).2.name = f.name := by
  have hcomponent : Path.IsComponent (Path.splitFile f.path).2 := by
    refine plain.isComponent ?_
    rw [Path.splitOn_of_plain plain]
    exact List.mem_append_right _ (List.mem_singleton.mpr rfl)
  show Path.name (Path.splitFile f.path).2 = Path.name f.path
  rw [hcomponent.name_eq, Path.name_of_plain plain]

end Plain

/-! ## What a tree has of its files -/

section Lossless

variable {files : List File} (plain : ∀ f ∈ files, Path.Plain f.path)
include plain

theorem Library.whole_perm : ((ofFiles files).all.map Located.whole).Perm (apart files) :=
  whole_perm_of_relative fun f hf => (plain f hf).relative

/-- The accessible files of a tree are those without a private directory. -/
theorem Library.accessible_whole_perm :
    ((ofFiles files).accessible.map Located.whole).Perm
      ((apart files).filter fun f => privateName ∉ f.directories) := by
  replace plain := forall_apart plain
  have hperm := (ofFiles_addresses files).map unseat
  rw [addresses, List.map_map, List.map_filterMap] at hperm
  have hhome : (apart files).filterMap (fun f => (home? f).map unseat) =
      (apart files).filter fun f => privateName ∉ f.directories := by
    rw [← List.filterMap_eq_filter]
    refine List.filterMap_congr fun f hf => ?_
    have hdirs : f.directories = (cut f).1 := File.directories_of_plain (plain f hf)
    have hhome : home? f = if privateName ∈ (cut f).1 then none else some (seat f) := rfl
    rw [hhome, ← hdirs]
    by_cases hprivate : privateName ∈ f.directories
    · simp [hprivate, Option.guard]
    · simp [hprivate, Option.guard, unseat_seat (plain f hf)]
  rwa [hhome] at hperm

/-- A file of a tree has the role that it has with its path from the root. -/
theorem Library.flags_whole {l : Located} (h : l ∈ (ofFiles files).all) :
    l.file.isLibrary = l.whole.isLibrary ∧
      ∀ m, l.file.isForOutput m = l.whole.isForOutput m := by
  replace plain := forall_apart plain
  have hmem : l.address ∈ (apart files).map seat :=
    (ofFiles_allAddresses files).subset (List.mem_map_of_mem h)
  obtain ⟨f, hf, hseat⟩ := List.mem_map.mp hmem
  have hwhole : l.whole = f := by
    show unseat l.address = f
    rw [← hseat, unseat_seat (plain f hf)]
  have hfile : l.file = (cut f).2 := (congrArg Prod.snd hseat).symm
  have hlibrary : l.file.isLibrary = l.whole.isLibrary := by
    rw [hwhole, hfile, File.isLibrary, File.isLibrary, name_cut (plain f hf)]
    rfl
  refine ⟨hlibrary, fun m => ?_⟩
  rw [File.isForOutput, File.isForOutput, File.isRendered, File.isRendered, hlibrary]
  rfl

/-- A library of a tree has the files whose directories are those of its path,
and a library for each directory that comes next. -/
theorem Library.Within.grouped {lib : Library} (hw : lib.Within (ofFiles files)) :
    lib.files.map (fun f => Located.whole ⟨f, lib⟩) =
        (apart files).filter (fun f => f.directories = lib.pathParts) ∧
      (lib.children.map Library.name).Nodup ∧
        lib.children.map Library.name =
          (files.filterMap (File.directoryBelow? lib.pathParts)).eraseDups := by
  rw [← directoriesBelow_apart]
  replace plain := forall_apart plain
  obtain ⟨hrooted, htop⟩ := ofFiles_rooted files
  obtain ⟨names, hpath, hgroups, hnames⟩ := Groups.within hw (ofFiles_groups files) hrooted
  rw [htop] at hpath
  have hdirs : ∀ f ∈ apart files, f.directories = (cut f).1 :=
    fun f hf => File.directories_of_plain (plain f hf)
  have hparts : lib.pathParts = names := by
    rw [pathParts, hpath]
    refine Path.parts_joins fun dir hdir => ?_
    obtain ⟨p, hp, hmem⟩ := hnames dir hdir
    obtain ⟨f, hf, rfl⟩ := List.mem_map.mp hp
    exact Path.splitFile_of_plain (plain f hf) dir hmem
  rw [hparts]
  cases hgroups with
  | @intro name path own children _ hown hchildren distinct _ =>
      have hpath : path = Path.joins [] names := hpath
      refine ⟨?_, distinct, ?_⟩
      · show own.map _ = _
        rw [hown, List.filterMap_filterMap, List.filterMap_map, List.map_filterMap,
          ← List.filterMap_eq_filter]
        refine List.filterMap_congr fun f hf => ?_
        rw [Function.comp_apply, under?_own, ← hdirs f hf]
        by_cases hhere : f.directories = names
        · have hseat : (Path.joins [] names, (cut f).2) = seat f := by
            rw [← hhere, hdirs f hf]
            rfl
          have hwhole := unseat_seat (plain f hf)
          rw [← hseat, ← hpath] at hwhole
          rw [if_pos hhere, Option.map_some]
          show some (unseat (path, (cut f).2)) = _
          simp [hwhole, hhere, Option.guard]
        · simp [hhere, Option.guard]
      · show children.map Library.name = _
        rw [hchildren, List.filterMap_filterMap, List.filterMap_map]
        refine congrArg List.eraseDups (List.filterMap_congr fun f hf => ?_)
        rw [Function.comp_apply, under?_head, ← hdirs f hf]
        rfl

/-- No two files of a tree that lie below a directory have the same number. -/
theorem Library.all_pairwise (same : ∀ f ∈ files, ∀ g ∈ files, f.id = g.id → f = g) :
    (ofFiles files).all.Pairwise fun k l =>
      k.file.id = l.file.id → k.whole = l.whole ∧ k.whole.directories = [] := by
  have apart : (apart files).Pairwise fun f g => f.id = g.id → f = g ∧ f.directories = [] := by
    refine (apart_pairwise same).imp_of_mem fun {f g} hf _ h heq => ?_
    obtain ⟨rfl, top⟩ := h heq
    rw [isBelow_of_plain (forall_apart plain f hf)] at top
    exact ⟨rfl, by simpa using top⟩
  refine List.pairwise_map.mp (((whole_perm plain).pairwise_iff fun {f g} h heq => ?_).mpr apart)
  obtain ⟨rfl, top⟩ := h heq.symm
  exact ⟨rfl, top⟩

end Lossless

/-- **A tree has the files that it is grown from**, private ones included, and
nothing is lost of them: each is there once, with the path that leads to its
library and the rest below it, with its content and its flags, and has the same
role there. Only its number may be new, which happens if it has been given before;
below a directory no number stands for two files. Every library has the files of
its directory in their order, and a library for each directory below it, each
called differently, in the order in which the directories first come. What the
root makes accessible are the files that have no directory called `_lib`. -/
theorem ofFiles_lossless (files : List File) (plain : ∀ f ∈ files, Path.Plain f.path) :
    let tree := Library.ofFiles files
    ∃ kept : List File, List.Forall₂ File.Alike files kept ∧ (files.Nodup → kept = files) ∧
      (tree.all.map Located.whole).Perm kept ∧
      ((∀ f ∈ files, ∀ g ∈ files, f.id = g.id → f = g) → tree.all.Pairwise fun k l =>
        k.file.id = l.file.id → k.whole = l.whole ∧ k.whole.directories = []) ∧
      (∀ l ∈ tree.all, l.file.isLibrary = l.whole.isLibrary ∧
        ∀ m, l.file.isForOutput m = l.whole.isForOutput m) ∧
      (∀ lib : Library, lib.Within tree →
        lib.files.map (fun f => Located.whole ⟨f, lib⟩) =
            kept.filter (fun f => f.directories = lib.pathParts) ∧
          (lib.children.map Library.name).Nodup ∧
            lib.children.map Library.name =
              (files.filterMap (File.directoryBelow? lib.pathParts)).eraseDups) ∧
      (tree.accessible.map Located.whole).Perm
        (kept.filter fun f => ("_lib" : Text) ∉ f.directories) :=
  ⟨Library.apart files, Library.apart_alike files, Library.apart_of_nodup,
    Library.whole_perm plain, Library.all_pairwise plain, fun _ h => Library.flags_whole plain h,
    fun _ hw => hw.grouped plain, Library.accessible_whole_perm plain⟩

/-- Files of three directories that come by turns, one of them below a private
one, and a file that is given twice. The second time it has another number, and
the same content. -/
theorem ofFiles_lossless_by_turns :
    let file (id : Nat) (path : Text) : File := .ofPath id path [id.toUInt8] true
    let files := [file 0 "b/x.yml", file 1 "a/_lib/b/y.lib.yml", file 2 "top.txt", file 3 "b/w.txt",
      file 4 "a/z.star", file 0 "b/x.yml"]
    let tree := Library.ofFiles files
    (∀ f ∈ files, Path.Plain f.path) ∧
      (tree.all.map fun l => (l.path, l.file.data)).Perm (files.map fun f => (f.path, f.data)) ∧
      (tree.all.Pairwise fun k l =>
        k.file.id = l.file.id → k.whole = l.whole ∧ k.whole.directories = []) ∧
      tree.children.map Library.name = ["b", "a"] := by
  intro file files tree
  have plain : ∀ f ∈ files, Path.Plain f.path := by
    unfold Path.Plain
    decide
  obtain ⟨kept, alike, -, all, numbers, -, grouped, -⟩ := ofFiles_lossless files plain
  have contents : kept.map (fun f => (f.path, f.data)) = files.map fun f => (f.path, f.data) :=
    File.map_eq_of_alike alike fun f g h => by rw [h.path, h.data]
  have listed := all.map fun f => (f.path, f.data)
  rw [contents, List.map_map] at listed
  have same : ∀ f ∈ files, ∀ g ∈ files, f.id = g.id → f = g := by decide
  have names := (grouped tree .here).2.2
  have here : (files.filterMap (File.directoryBelow? tree.pathParts)).eraseDups =
      [("b" : Text), "a"] := by
    decide
  rw [here] at names
  exact ⟨plain, listed, numbers same, names⟩

end Stencil
