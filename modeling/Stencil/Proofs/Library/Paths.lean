import Stencil.Library.Path

/-!
# Plain paths

A path is plain if none of its components is empty or a single dot. The two
ways of reading paths agree on plain ones: the directories into which a tree
places a file are the components before its name, and looking up the path
that they join to follows them one by one.

Whatever a path is, the directories and the name into which it is cut tell
the path, so two paths that are cut alike are the same. If it does not start
with a separator, joining them gives the path back.

## Main definitions

* `Path.Plain` — paths whose components all count.
* `Path.joins` — the path of directories below another.
* `Path.Relative` — paths that do not start with a separator.

## Main results

* `Path.splitFile_injective` — paths that are cut alike are the same.
* `Path.splitFile_of_plain` — how a plain path is cut.
* `Path.parts_joins` — the components of joined directories.
* `Path.joins_nil` — how joined directories are written.
* `Path.Relative.join_splitFile` — joining what a path is cut into.
* `Path.parts_append` — the components of a path put together from two.
-/

namespace Stencil

namespace Text

variable {sep : CodePoint}

/-- A separator between two texts cuts there. -/
theorem splitOn_append (a b : Text) :
    splitOn sep (a ++ sep :: b) = splitOn sep a ++ splitOn sep b := by
  induction a with
  | nil => simp [splitOn]
  | cons c a ih =>
      simp only [List.cons_append, splitOn, ih]
      split
      · rfl
      · cases h : splitOn sep a with
        | nil => exact absurd h (splitOn_ne_nil sep a)
        | cons piece rest => rfl

/-- A text without separators is one piece. -/
theorem splitOn_of_notMem {t : Text} (h : sep ∉ t) : splitOn sep t = [t] := by
  induction t with
  | nil => rfl
  | cons c t ih =>
      rw [List.mem_cons, not_or] at h
      simp only [splitOn, if_neg (Ne.symm h.1), ih h.2]

/-- No piece has a separator. -/
theorem notMem_of_mem_splitOn {t piece : Text} (h : piece ∈ splitOn sep t) : sep ∉ piece := by
  induction t generalizing piece with
  | nil =>
      rw [splitOn_nil, List.mem_singleton] at h
      subst h
      exact List.not_mem_nil
  | cons c t ih =>
      simp only [splitOn] at h
      split at h
      · rcases List.mem_cons.mp h with rfl | h
        · exact List.not_mem_nil
        · exact ih h
      · next hc =>
        cases hs : splitOn sep t with
        | nil => exact absurd hs (splitOn_ne_nil sep t)
        | cons first rest =>
            simp only [hs] at h
            rcases List.mem_cons.mp h with rfl | h
            · rw [List.mem_cons, not_or]
              exact ⟨Ne.symm hc, ih (hs ▸ List.mem_cons_self ..)⟩
            · exact ih (hs ▸ List.mem_cons_of_mem _ h)

end Text

namespace Path

/-! ## Cutting a path -/

/-- The path that is cut into some directories and a name. -/
def unsplit (dirs : List Text) (file : Text) : Text := dirs.flatMap (· ++ [separator]) ++ file

theorem unsplit_splitFile (path : Text) :
    unsplit (splitFile path).1 (splitFile path).2 = path := by
  induction path with
  | nil => rfl
  | cons c path ih =>
      cases path with
      | nil => rfl
      | cons d t =>
          simp only [splitFile]
          split
          · next hc =>
            rw [hc]
            exact congrArg (separator :: ·) ih
          · cases hdirs : (splitFile (d :: t)).1 <;> rw [hdirs] at ih <;>
              exact congrArg (c :: ·) ih

/-- **Paths that are cut alike** are the same. -/
theorem splitFile_injective {p q : Text} (h : splitFile p = splitFile q) : p = q := by
  rw [← unsplit_splitFile p, ← unsplit_splitFile q, h]

/-- A path that does not end with a separator is cut at each of them. -/
private theorem splitFile_eq_splitOn {path : Text} (h : path.getLast? ≠ some separator) :
    (splitFile path).1 ++ [(splitFile path).2] = path.splitOn separator := by
  induction path with
  | nil => rfl
  | cons c path ih =>
      cases path with
      | nil =>
          have hc : c ≠ separator := by simpa using h
          simp [splitFile, Text.splitOn, hc]
      | cons d t =>
          have hih := ih (by simpa using h)
          rw [Text.splitOn, ← hih]
          simp only [splitFile]
          split
          · rfl
          · cases hdirs : (splitFile (d :: t)).1 <;> rfl

/-! ## Plain paths -/

/-- Whether all components of a path count. -/
def Plain (path : Text) : Prop :=
  ∀ component ∈ path.splitOn separator, component ≠ [] ∧ component ≠ ("." : Text)

/-- A plain path does not end with a separator. -/
private theorem Plain.getLast?_ne {path : Text} (h : Plain path) :
    path.getLast? ≠ some separator := by
  intro hlast
  obtain ⟨before, rfl⟩ := List.getLast?_eq_some_iff.mp hlast
  refine (h [] ?_).1 rfl
  rw [Text.splitOn_append, Text.splitOn_nil]
  simp

/-- The components of a plain path are its directories and its name. -/
theorem splitOn_of_plain {path : Text} (h : Plain path) :
    path.splitOn separator = (splitFile path).1 ++ [(splitFile path).2] :=
  (splitFile_eq_splitOn h.getLast?_ne).symm

/-- Whether a text is a component that counts. -/
def IsComponent (t : Text) : Prop := separator ∉ t ∧ isPart t = true

/-- Every component of a plain path counts. -/
theorem Plain.isComponent {path component : Text} (h : Plain path)
    (mem : component ∈ path.splitOn separator) : IsComponent component := by
  obtain ⟨hempty, hdot⟩ := h component mem
  exact ⟨Text.notMem_of_mem_splitOn mem, by simp [isPart, hempty, hdot]⟩

/-- **How a plain path is cut**: every directory is a component that
counts. -/
theorem splitFile_of_plain {path : Text} (h : Plain path) :
    ∀ dir ∈ (splitFile path).1, IsComponent dir := by
  intro dir hdir
  have hmem : dir ∈ path.splitOn separator := by
    rw [splitOn_of_plain h]
    exact List.mem_append_left _ hdir
  exact h.isComponent hmem

/-- The name of a plain path is the last of its components. -/
theorem name_of_plain {path : Text} (h : Plain path) : name path = (splitFile path).2 := by
  have hparts : (path.splitOn separator).filter isPart = path.splitOn separator :=
    List.filter_eq_self.mpr fun component hmem => (h.isComponent hmem).2
  rw [name, hparts, splitOn_of_plain h, List.getLast?_concat]
  rfl

/-- A component that counts is its own name. -/
theorem IsComponent.name_eq {t : Text} (h : IsComponent t) : name t = t := by
  rw [name, Text.splitOn_of_notMem h.1, List.filter_cons_of_pos h.2]
  rfl

/-! ## Joining directories -/

/-- The path of some directories, one below the other. -/
def joins (path : Text) (dirs : List Text) : Text := dirs.foldl join path

/-- A component that counts does not start with a separator. -/
private theorem IsComponent.head?_ne {t : Text} (h : IsComponent t) :
    t.head? ≠ some separator := by
  intro hhead
  exact h.1 (List.mem_of_head? hhead)

private theorem root_of_head?_ne {path : Text} (h : path.head? ≠ some separator) :
    root path = [] := by
  cases path with
  | nil => rfl
  | cons c t =>
      have hc : c ≠ separator := by simpa using h
      simp [root, hc]

/-- The components of a path with one more below it. -/
theorem parts_join {path dir : Text} (hpath : path.head? ≠ some separator)
    (hdir : IsComponent dir) :
    (join path dir).head? ≠ some separator ∧ parts (join path dir) = parts path ++ [dir] := by
  have hone : dir.splitOn separator = [dir] := Text.splitOn_of_notMem hdir.1
  cases path with
  | nil =>
      refine ⟨hdir.head?_ne, ?_⟩
      show parts dir = parts [] ++ [dir]
      rw [parts, root_of_head?_ne hdir.head?_ne, hone, List.filter_cons_of_pos hdir.2]
      rfl
  | cons c t =>
      have hjoin : join (c :: t) dir = (c :: t) ++ separator :: dir := List.append_assoc _ _ _
      rw [hjoin]
      refine ⟨hpath, ?_⟩
      rw [parts, parts, root_of_head?_ne hpath, root_of_head?_ne (by exact hpath),
        Text.splitOn_append, hone]
      simp [hdir.2]

/-- **The components of joined directories** are the directories. -/
theorem parts_joins {dirs : List Text} (h : ∀ dir ∈ dirs, IsComponent dir) :
    parts (joins [] dirs) = dirs := by
  suffices hsuff : ∀ path : Text, path.head? ≠ some separator →
      parts (joins path dirs) = parts path ++ dirs from
    hsuff [] nofun
  induction dirs with
  | nil => intro path _; exact (List.append_nil _).symm
  | cons dir dirs ih =>
      intro path hpath
      obtain ⟨hhead, hparts⟩ := parts_join hpath (h dir (List.mem_cons_self ..))
      have hrest := ih (fun d hd => h d (List.mem_cons_of_mem _ hd)) (join path dir) hhead
      rw [hparts, List.append_assoc] at hrest
      exact hrest

/-- Below a path that is not empty, a name stands after directories that are
joined as it stands after directories that are not cut off. -/
private theorem join_joins_below (dirs : List Text) (file : Text) {path : Text} (h : path ≠ []) :
    join (joins path dirs) file = path ++ separator :: unsplit dirs file := by
  induction dirs generalizing path with
  | nil =>
      cases path with
      | nil => exact absurd rfl h
      | cons c path => exact List.append_assoc _ _ _
  | cons dir dirs ih =>
      cases path with
      | nil => exact absurd rfl h
      | cons c path =>
          have hjoin : join (c :: path) dir = (c :: path) ++ separator :: dir :=
            List.append_assoc _ _ _
          rw [joins, List.foldl_cons, ← joins, hjoin, ih (by simp)]
          simp [unsplit]

/-- Directories below a path that is not empty are written after it. -/
private theorem joins_eq_joinWith (dirs : List Text) {path : Text} (h : path ≠ []) :
    joins path dirs = Text.joinWith "/" (path :: dirs) := by
  induction dirs generalizing path with
  | nil => rfl
  | cons dir dirs ih =>
      cases path with
      | nil => exact absurd rfl h
      | cons c path =>
          have hjoin : join (c :: path) dir = (c :: path) ++ ("/" : Text) ++ dir := rfl
          rw [joins, List.foldl_cons, ← joins, hjoin, ih (by simp)]
          cases dirs <;> simp [Text.joinWith]

/-- **The path of directories** that are all called something has a separator
between each two. -/
theorem joins_nil {dirs : List Text} (h : ∀ dir ∈ dirs, dir ≠ []) :
    joins [] dirs = Text.joinWith "/" dirs := by
  cases dirs with
  | nil => rfl
  | cons dir dirs => exact joins_eq_joinWith dirs (h dir (List.mem_cons_self ..))

/-- **A name below its directories, joined**, is the path that is cut into
them, unless the first of them is called nothing. -/
theorem join_joins {dirs : List Text} {file : Text} (h : dirs.head? ≠ some []) :
    join (joins [] dirs) file = unsplit dirs file := by
  cases dirs with
  | nil => rfl
  | cons dir dirs =>
      have hdir : dir ≠ [] := fun hempty => h (congrArg some hempty)
      have htop : join [] dir = dir := rfl
      rw [joins, List.foldl_cons, ← joins, htop, join_joins_below dirs file hdir]
      simp [unsplit]

/-! ## Relative paths -/

/-- Whether a path does not start with a separator. -/
def Relative (path : Text) : Prop := path.head? ≠ some separator

instance (path : Text) : Decidable (Relative path) :=
  inferInstanceAs (Decidable (path.head? ≠ some separator))

/-- A plain path does not start with a separator. -/
theorem Plain.relative {path : Text} (h : Plain path) : Relative path := by
  intro hhead
  cases path with
  | nil => cases hhead
  | cons c t =>
      cases hhead
      refine (h [] ?_).1 rfl
      simp [Text.splitOn]

/-- **Joining what a relative path is cut into** gives the path back. -/
theorem Relative.join_splitFile {path : Text} (h : Relative path) :
    join (joins [] (splitFile path).1) (splitFile path).2 = path := by
  have hfirst : (splitFile path).1.head? ≠ some [] := by
    intro hhead
    refine h ?_
    rw [← unsplit_splitFile path]
    cases hdirs : (splitFile path).1 with
    | nil =>
        rw [hdirs] at hhead
        cases hhead
    | cons dir dirs =>
        rw [hdirs] at hhead
        cases hhead
        rfl
  rw [join_joins hfirst, unsplit_splitFile]

/-- The components of a relative path are the pieces of it that count. -/
theorem Relative.parts_eq {path : Text} (h : Relative path) :
    parts path = (path.splitOn separator).filter isPart := by
  rw [parts, root_of_head?_ne h, List.nil_append]

/-- **The components of a path put together from two** are those of the first and
then those of the second. -/
theorem parts_append {p q : Text} (hp : Relative p) (hq : Relative q) (given : p ≠ []) :
    parts (p ++ separator :: q) = parts p ++ parts q := by
  have hpq : Relative (p ++ separator :: q) := by
    cases p with
    | nil => exact absurd rfl given
    | cons c p => exact hp
  rw [hpq.parts_eq, hp.parts_eq, hq.parts_eq, Text.splitOn_append, List.filter_append]

end Path

end Stencil
