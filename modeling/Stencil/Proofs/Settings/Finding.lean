import Mathlib.Data.List.Induction
import Stencil.Proofs.Settings.Following
import Stencil.Settings.Discovery

/-!
# The configuration file that is found

A search goes upwards, one directory after another, and ends at the top at the latest. So
it finds the file in the nearest directory that has one, and nothing if there is none in
any of them. A file that the environment names is not searched for: it is the one to use
if it is there, and otherwise there is none, whatever lies in the directories above.

There is one thing that a search cannot do. A path that is too long to be looked up, or
meets a name that is, is not just a path to nothing, and looking it up fails. The paths
that a search looks up get shorter on the way, so it fails at its first one or nowhere; and
in a directory that is there it fails only if the path is too long as a whole.

## Main definitions

* `FileTree.Starts`, `FileTree.Unsearchable` — the directory in which a search starts, and
  why there is none.
* `FileTree.configIn`, `FileTree.hasConfig` — the configuration file of a directory.
* `FileTree.Nearest` — the nearest directory above another that has a configuration file.

## Main results

* `FileTree.firstConfig_concat` — one step of the search.
* `FileTree.find?_ancestors` — the directory that is found on the way up.
* `FileTree.firstConfig_ancestors` — what is found on the way up.
* `FileTree.findConfig_outcome` — what is found.
-/

namespace Stencil

/-! ## The way up -/

namespace Place

variable {p : Place}

/-- The way up from a directory leads on from the one above it. -/
theorem ancestors_concat (p : Place) (name : Text) :
    ancestors (p ++ [name]) = (p ++ [name]) :: ancestors p := by
  simp [ancestors, ancestorsFrom]

/-- The way up starts at the directory itself. -/
theorem ancestors_eq_cons (p : Place) : ∃ others, ancestors p = p :: others := by
  rcases List.eq_nil_or_concat p with rfl | ⟨p, name, rfl⟩
  · exact ⟨[], rfl⟩
  · exact ⟨ancestors p, by rw [List.concat_eq_append, ancestors_concat]⟩

end Place

namespace FileTree

variable {t : FileTree} {directory d : Place} {start named : Option Text}

/-- The path to the configuration file of a directory. -/
def configIn (d : Place) : Route := .ofPlace (d ++ [("docweave.toml" : Text)])

/-- Whether a directory has a configuration file. -/
def hasConfig (t : FileTree) (d : Place) : Bool := t.isFile (d ++ [("docweave.toml" : Text)])

/-- The nearest directory with a configuration file at another one or above it: every other
such directory is above it. -/
structure Nearest (t : FileTree) (directory d : Place) : Prop where
  above : d <+: directory
  has : t.hasConfig d = true
  nearest : ∀ other, other <+: directory → t.hasConfig other = true → other <+: d

/-- One step of the search: what is not found in a directory is searched for in the one
above it. -/
theorem firstConfig_concat (t : FileTree) (d : Place) (name : Text) :
    t.firstConfig (d ++ [name]).ancestors =
      t.hasFile (configIn (d ++ [name])) >>= fun found =>
        if found then .ok (some (configIn (d ++ [name])))
        else t.firstConfig d.ancestors := by
  rw [Place.ancestors_concat]
  rfl

/-- **The way up** leads past the nearest directory with a configuration file first. -/
theorem find?_ancestors : directory.ancestors.find? t.hasConfig = some d ↔
    t.Nearest directory d := by
  induction directory using List.reverseRecOn with
  | nil =>
      have alone (p : Place) (h : p <+: []) : p = [] := List.prefix_nil.mp h
      constructor
      · intro h
        have has := List.find?_some h
        have mem := List.mem_of_find?_eq_some h
        rw [show Place.ancestors [] = [[]] from rfl, List.mem_singleton] at mem
        subst mem
        exact ⟨List.prefix_refl _, has, fun other above _ => above⟩
      · rintro ⟨above, has, -⟩
        rw [alone d above] at has ⊢
        exact List.find?_cons_of_pos has
  | append_singleton directory name ih =>
      rw [Place.ancestors_concat]
      cases here : t.hasConfig (directory ++ [name]) with
      | true =>
          rw [List.find?_cons_of_pos here, Option.some_inj]
          constructor
          · rintro rfl
            exact ⟨List.prefix_refl _, here, fun other above _ => above⟩
          · rintro ⟨above, -, nearest⟩
            exact (nearest _ (List.prefix_refl _) here).eq_of_length_le above.length_le
      | false =>
          rw [List.find?_cons_of_neg (Bool.eq_false_iff.mp here), ih]
          -- the directory itself has none, so whatever has one is above it
          have higher {p : Place} (has : t.hasConfig p = true) :
              p <+: directory ++ [name] ↔ p <+: directory := by
            rw [List.prefix_concat_iff, or_iff_right]
            rintro rfl
            rw [here] at has
            cases has
          constructor
          · rintro ⟨above, has, nearest⟩
            exact ⟨(higher has).mpr above, has,
              fun p hp hasP => nearest p ((higher hasP).mp hp) hasP⟩
          · rintro ⟨above, has, nearest⟩
            exact ⟨(higher has).mp above, has,
              fun p hp hasP => nearest p ((higher hasP).mpr hp) hasP⟩

theorem find?_ancestors_eq_none : directory.ancestors.find? t.hasConfig = none ↔
    ∀ p, p <+: directory → t.hasConfig p = false := by
  induction directory using List.reverseRecOn with
  | nil => simp [show Place.ancestors [] = [[]] from rfl]
  | append_singleton directory name ih =>
      rw [Place.ancestors_concat, List.find?_eq_none, List.forall_mem_cons,
        ← List.find?_eq_none, ih]
      simp only [List.prefix_concat_iff, forall_eq_or_imp, Bool.not_eq_true]

/-! ## Paths that are too long -/

/-- A path has more bytes if it leads through one more directory. -/
theorem bytes_configIn (d : Place) (name : Text) :
    Native.bytes (configIn d).text ≤ Native.bytes (configIn (d ++ [name])).text := by
  have longer : Native.bytes (Text.joinWith "/" (d ++ [("docweave.toml" : Text)])) ≤
      Native.bytes (Text.joinWith "/" (d ++ [name] ++ [("docweave.toml" : Text)])) := by
    induction d with
    | nil =>
        rw [List.nil_append, List.nil_append, List.singleton_append,
          Route.joinWith_cons name (List.cons_ne_nil _ _), Native.bytes_append, Native.bytes]
        omega
    | cons first d ih =>
        simp only [List.cons_append] at ih ⊢
        rw [Route.joinWith_cons first (by simp), Route.joinWith_cons first (by simp),
          Native.bytes_append, Native.bytes_append, Native.bytes, Native.bytes]
        omega
  have shown (p : Place) : (Route.ofPlace p).text = Path.separator :: Text.joinWith "/" p := rfl
  rw [configIn, configIn, shown, shown, Native.bytes, Native.bytes]
  omega

/-- A name that is too long is met on the way to a directory, and not at its configuration
file. -/
theorem meets_config {here : Place} {after : List Text}
    (h : t.Meets here (d ++ [("docweave.toml" : Text)])) : t.Meets here (d ++ after) := by
  obtain ⟨before, name, behind, p, hnames, leads, there, long⟩ := h
  rcases List.eq_nil_or_concat behind with rfl | ⟨behind, last, rfl⟩
  · obtain ⟨-, hlast⟩ := List.append_inj' hnames rfl
    cases hlast
    exact absurd long (by decide)
  · have hsplit : d ++ [("docweave.toml" : Text)] = (before ++ name :: behind) ++ [last] := by
      simpa using hnames
    obtain ⟨rfl, -⟩ := List.append_inj' hsplit rfl
    exact ⟨before, name, behind ++ after, p, by simp, leads, there, long⟩

/-- What is refused in a directory is refused below it as well. -/
theorem refuses_below {name : Text} (hname : Native.Clean name)
    (h : t.Refuses (configIn d)) : t.Refuses (configIn (d ++ [name])) := by
  obtain ⟨clean, long⟩ := h
  have clean : ∀ n ∈ d ++ [("docweave.toml" : Text)], Native.Clean n := clean
  refine ⟨?_, long.imp (fun long => Nat.lt_of_lt_of_le long (bytes_configIn d name)) ?_⟩
  · show ∀ n ∈ d ++ [name] ++ [("docweave.toml" : Text)], Native.Clean n
    simp only [List.forall_mem_append] at clean ⊢
    exact ⟨⟨clean.1, List.forall_mem_singleton.mpr hname⟩, clean.2⟩
  · rintro ⟨here, starts, meets⟩
    refine ⟨here, starts, ?_⟩
    show t.Meets here (d ++ [name] ++ [("docweave.toml" : Text)])
    rw [List.append_assoc]
    exact meets_config meets

/-- A path that leads through directories that are there is refused only for its length. -/
theorem not_refuses_of_isDirectory (possible : t.Possible) (there : t.isDirectory d = true)
    (short : Native.bytes (configIn d).text ≤ 4095) : ¬ t.Refuses (configIn d) := by
  rintro ⟨-, long | ⟨here, -, meets⟩⟩
  · exact absurd long (Nat.not_lt.mpr short)
  · have within : t.Meets here (d ++ []) := meets_config meets
    obtain ⟨before, name, after, p, hnames, -, -, long⟩ := within
    have mem : name ∈ d := by
      rw [← List.append_nil d, hnames]
      exact List.mem_append_right _ (List.mem_cons_self ..)
    exact absurd long (Nat.not_lt.mpr (possible.canBeName (.inl there) name mem).1)

/-! ## Where a search starts -/

/-- The directory in which a search starts, with all steps up taken. -/
inductive Starts (t : FileTree) : Option Text → Place → Prop
  /-- It is the working directory if no other one is given. -/
  | here : Starts t none t.workingDirectory
  | given {path : Text} {here directory : Place}
      (starts : t.StartsAt (Route.ofText path).anchor here)
      (clean : ∀ name ∈ (Route.ofText path).names, Native.Clean name)
      (reaches : here.Reaches (Route.ofText path).names directory) : Starts t (some path) directory

/-- A start that cannot be looked up. -/
def Unsearchable (start : Option Text) (obstacle : Native.Obstacle) : Prop :=
  ∃ path, start = some path ∧
    (Route.mk (Route.ofText path).anchor.settled []).Stops (Route.ofText path).names obstacle

theorem resolve_eq_ok (possible : t.Possible) :
    t.resolve (t.startOf start) = .ok directory ↔ t.Starts start directory := by
  rw [resolve, Route.resolveFrom_eq_ok (List.forall_mem_nil _)]
  cases start with
  | none =>
      have self : Place.Reaches [] t.workingDirectory t.workingDirectory :=
        Place.reaches_level possible.level
      constructor
      · rintro ⟨-, reaches⟩
        cases (Place.reaches_iff.mp self).symm.trans (Place.reaches_iff.mp reaches)
        exact .here
      · rintro ⟨⟩
        exact ⟨fun name hname => (possible.workingDirectory name hname).2, self⟩
  | some path =>
      constructor
      · rintro ⟨clean, reaches⟩
        exact .given (startsAt_iff.mpr rfl) clean reaches
      · rintro (_ | ⟨starts, clean, reaches⟩)
        exact ⟨clean, startsAt_iff.mp starts ▸ reaches⟩

theorem resolve_eq_error (possible : t.Possible) {obstacle : Native.Obstacle} :
    t.resolve (t.startOf start) = .error obstacle ↔ Unsearchable start obstacle := by
  cases start with
  | none =>
      have found := (resolve_eq_ok possible).mpr (.here (t := t))
      rw [found]
      refine iff_of_false nofun ?_
      rintro ⟨path, ⟨⟩, -⟩
  | some path =>
      rw [resolve, Route.resolveFrom_eq_error (List.forall_mem_nil _)]
      constructor
      · exact fun stops => ⟨path, rfl, stops⟩
      · rintro ⟨_, ⟨⟩, stops⟩
        exact stops

/-- Where a search starts there are no steps up, and names that the system can be asked. -/
theorem Starts.forall_mem (possible : t.Possible) (starts : t.Starts start directory) :
    ∀ name ∈ directory, name ≠ Place.parentName ∧ Native.Clean name := by
  have home : ∀ name ∈ t.workingDirectory,
      name ≠ Place.parentName ∧ Native.Clean name := fun name hname =>
    ⟨fun up => possible.level (up ▸ hname), (possible.workingDirectory name hname).2⟩
  cases starts with
  | here => exact home
  | @given path here _ at' clean reaches =>
      refine reaches.forall_mem ?_ fun name hname other => ⟨other, clean name hname⟩
      generalize (Route.ofText path).anchor = anchor at at'
      cases at' with
      | relative => exact home
      | top => exact List.forall_mem_nil _
      | doubled => exact List.forall_mem_nil _

/-! ## The search -/

/-- With a name there is no search. -/
theorem findConfig_named {path : Text} (given : path ≠ []) (start : Option Text) :
    t.findConfig (some path) start = t.namedConfig path := by
  cases path with
  | nil => exact absurd rfl given
  | cons c path => rfl

/-- Without a name, or with an empty one, there is a search. -/
theorem findConfig_unnamed (unnamed : named = none ∨ named = some []) :
    t.findConfig named start =
      (t.resolve (t.startOf start)).mapError .unsearchable >>= fun directory =>
        t.firstConfig directory.ancestors := by
  rcases unnamed with rfl | rfl <;> rfl

section Search

variable (possible : t.Possible)

include possible

theorem hasFile_eq_true {r : Route} : t.hasFile r = .ok true ↔ t.HasFileAt r ∧ ¬ t.Refuses r := by
  rw [hasFile, mapError_eq_ok, leadsToFile_eq_true possible]

theorem hasFile_eq_error {r : Route} {f : LoadFailure} :
    t.hasFile r = .error f ↔ t.Refuses r ∧ f = .unreadable r.text .tooLong := by
  simp only [hasFile, mapError_eq_error, leadsToFile_eq_error possible]
  constructor
  · rintro ⟨_, ⟨rfl, refused⟩, rfl⟩
    exact ⟨refused, rfl⟩
  · rintro ⟨refused, rfl⟩
    exact ⟨_, ⟨rfl, refused⟩, rfl⟩

/-- Whether there is a file can be told where nothing is refused. -/
theorem hasFile_eq_false {r : Route} :
    t.hasFile r = .ok false ↔ ¬ t.HasFileAt r ∧ ¬ t.Refuses r := by
  cases found : t.hasFile r with
  | error f => simp [((hasFile_eq_error possible).mp found).1]
  | ok there =>
      have allowed : ¬ t.Refuses r := fun refused => by
        cases found.symm.trans ((hasFile_eq_error possible).mpr ⟨refused, rfl⟩)
      have told := hasFile_eq_true possible (r := r)
      rw [found] at told
      cases there with
      | true => simp [(told.mp rfl).1]
      | false => simpa [allowed] using told

/-- A directory in which nothing is refused has a configuration file or not. -/
theorem hasFile_config (level : ∀ name ∈ d, name ≠ Place.parentName)
    (allowed : ¬ t.Refuses (configIn d)) : t.hasFile (configIn d) = .ok (t.hasConfig d) := by
  have levelled : ∀ name ∈ d ++ [("docweave.toml" : Text)], name ≠ Place.parentName :=
    List.forall_mem_append.mpr ⟨level, List.forall_mem_singleton.mpr (by decide)⟩
  cases has : t.hasConfig d with
  | true => exact (hasFile_eq_true possible).mpr ⟨(hasFileAt_ofPlace levelled).mpr has, allowed⟩
  | false =>
      refine (hasFile_eq_false possible).mpr ⟨fun there => ?_, allowed⟩
      exact Bool.eq_false_iff.mp has ((hasFileAt_ofPlace levelled).mp there)

/-- **A search upwards** from a directory in which nothing is refused: each step looks into
one directory, and nothing is refused in the one above it either. -/
theorem firstConfig_ancestors
    (names : ∀ name ∈ directory, name ≠ Place.parentName ∧ Native.Clean name)
    (allowed : ¬ t.Refuses (configIn directory)) :
    t.firstConfig directory.ancestors =
      .ok ((directory.ancestors.find? t.hasConfig).map configIn) := by
  have level : ∀ name ∈ directory, name ≠ Place.parentName := fun name hname =>
    (names name hname).1
  induction directory using List.reverseRecOn with
  | nil =>
      have here := hasFile_config possible level allowed
      rw [show Place.ancestors [] = [[]] from rfl, List.find?_cons]
      show t.hasFile (configIn []) >>= _ = _
      rw [here]
      cases t.hasConfig [] <;> rfl
  | append_singleton directory name ih =>
      obtain ⟨above, last⟩ := List.forall_mem_append.mp names
      rw [firstConfig_concat, hasFile_config possible level allowed, Place.ancestors_concat,
        List.find?_cons]
      cases t.hasConfig (directory ++ [name]) with
      | true => rfl
      | false =>
          have hname := (last name (List.mem_singleton_self name)).2
          exact ih above (fun refused => allowed (refuses_below hname refused))
            fun n hn => (above n hn).1

/-- A search is refused in its first directory. -/
theorem firstConfig_refused (refused : t.Refuses (configIn directory)) :
    t.firstConfig directory.ancestors =
      .error (.unreadable (configIn directory).text .tooLong) := by
  have failed := (hasFile_eq_error possible).mpr ⟨refused, rfl⟩
  obtain ⟨others, hfirst⟩ := Place.ancestors_eq_cons directory
  rw [hfirst]
  show t.hasFile (configIn directory) >>= _ = _
  rw [failed]
  rfl

/-! ## What is found -/

/-- A file that is named is used if it is there. -/
theorem namedConfig_eq_some {path : Text} {r : Route} :
    t.namedConfig path = .ok (some r) ↔
      r = Route.ofText path ∧ t.HasFileAt r ∧ ¬ t.Refuses r := by
  rw [namedConfig, bind_eq_ok]
  constructor
  · rintro ⟨there, found, h⟩
    cases there <;> cases h
    exact ⟨rfl, (hasFile_eq_true possible).mp found⟩
  · rintro ⟨rfl, found⟩
    exact ⟨true, (hasFile_eq_true possible).mpr found, rfl⟩

theorem namedConfig_eq_none {path : Text} :
    t.namedConfig path = .ok none ↔
      ¬ t.HasFileAt (Route.ofText path) ∧ ¬ t.Refuses (Route.ofText path) := by
  rw [← hasFile_eq_false possible, namedConfig, bind_eq_ok]
  constructor
  · rintro ⟨there, found, h⟩
    cases there <;> cases h
    exact found
  · exact fun found => ⟨false, found, rfl⟩

/-- Finding out about a file that is named fails where the file is refused. -/
theorem namedConfig_eq_error {path : Text} {f : LoadFailure} :
    t.namedConfig path = .error f ↔
      t.Refuses (Route.ofText path) ∧ f = .unreadable (Route.ofText path).text .tooLong := by
  rw [← hasFile_eq_error possible, namedConfig, bind_eq_error]
  constructor
  · rintro (failed | ⟨there, -, h⟩)
    · exact failed
    · cases there <;> cases h
  · exact .inl

/-- A search does not start, or is refused, or finds what lies on the way up. -/
theorem findConfig_cases (unnamed : named = none ∨ named = some []) (start : Option Text) :
    (∃ obstacle, Unsearchable start obstacle ∧ (∀ directory, ¬ t.Starts start directory) ∧
      t.findConfig named start = .error (.unsearchable obstacle)) ∨
    ∃ directory, t.Starts start directory ∧ (∀ other, t.Starts start other → other = directory) ∧
      (∀ obstacle, ¬ Unsearchable start obstacle) ∧
      (t.Refuses (configIn directory) ∧
        t.findConfig named start = .error (.unreadable (configIn directory).text .tooLong) ∨
      ¬ t.Refuses (configIn directory) ∧
        t.findConfig named start =
          .ok ((directory.ancestors.find? t.hasConfig).map configIn)) := by
  have started (other : Place) : t.resolve (t.startOf start) = .ok other ↔ t.Starts start other :=
    resolve_eq_ok possible
  have stopped (obstacle : Native.Obstacle) :
      t.resolve (t.startOf start) = .error obstacle ↔ Unsearchable start obstacle :=
    resolve_eq_error possible
  rw [findConfig_unnamed unnamed]
  cases resolved : t.resolve (t.startOf start) with
  | error obstacle =>
      refine .inl ⟨obstacle, (stopped obstacle).mp resolved, fun directory starts => ?_, rfl⟩
      cases resolved.symm.trans ((started directory).mpr starts)
  | ok directory =>
      have starts := (started directory).mp resolved
      refine .inr ⟨directory, starts, fun other h => ?_, fun obstacle h => ?_, ?_⟩
      · cases resolved.symm.trans ((started other).mpr h)
        rfl
      · cases resolved.symm.trans ((stopped obstacle).mpr h)
      · by_cases refused : t.Refuses (configIn directory)
        · exact .inl ⟨refused, firstConfig_refused possible refused⟩
        · exact .inr ⟨refused,
            firstConfig_ancestors possible (starts.forall_mem possible) refused⟩

section Unnamed

variable (unnamed : named = none ∨ named = some [])

include unnamed

/-- A search finds the file in the nearest directory that has one. -/
theorem search_eq_some {r : Route} :
    t.findConfig named start = .ok (some r) ↔
      ∃ directory d, t.Starts start directory ∧ ¬ t.Refuses (configIn directory) ∧
        t.Nearest directory d ∧ r = configIn d := by
  rcases findConfig_cases possible unnamed start with
    ⟨obstacle, -, none, found⟩ | ⟨directory, starts, only, -, ⟨refused, found⟩ | ⟨allowed, found⟩⟩
  · rw [found]
    exact iff_of_false nofun fun ⟨directory, d, starts, _⟩ => none directory starts
  · rw [found]
    refine iff_of_false nofun fun ⟨other, d, h, allowed, _⟩ => ?_
    exact allowed (only other h ▸ refused)
  · simp only [found, Except.ok.injEq, Option.map_eq_some_iff, find?_ancestors]
    constructor
    · rintro ⟨d, nearest, rfl⟩
      exact ⟨directory, d, starts, allowed, nearest, rfl⟩
    · rintro ⟨other, d, h, -, nearest, rfl⟩
      exact ⟨d, only other h ▸ nearest, rfl⟩

/-- A search finds nothing if no directory on the way up has a configuration file. -/
theorem search_eq_none :
    t.findConfig named start = .ok none ↔
      ∃ directory, t.Starts start directory ∧ ¬ t.Refuses (configIn directory) ∧
        ∀ d, d <+: directory → t.hasConfig d = false := by
  rcases findConfig_cases possible unnamed start with
    ⟨obstacle, -, none, found⟩ | ⟨directory, starts, only, -, ⟨refused, found⟩ | ⟨allowed, found⟩⟩
  · rw [found]
    exact iff_of_false nofun fun ⟨directory, starts, _⟩ => none directory starts
  · rw [found]
    exact iff_of_false nofun fun ⟨other, h, allowed, _⟩ => allowed (only other h ▸ refused)
  · simp only [found, Except.ok.injEq, Option.map_eq_none_iff, find?_ancestors_eq_none]
    constructor
    · exact fun without => ⟨directory, starts, allowed, without⟩
    · rintro ⟨other, h, -, without⟩
      exact only other h ▸ without

/-- A search fails where it cannot start or is refused, and nowhere else. -/
theorem search_eq_error {f : LoadFailure} :
    t.findConfig named start = .error f ↔
      (∃ obstacle, Unsearchable start obstacle ∧ f = .unsearchable obstacle) ∨
      ∃ directory, t.Starts start directory ∧ t.Refuses (configIn directory) ∧
        f = .unreadable (configIn directory).text .tooLong := by
  rcases findConfig_cases possible unnamed start with
    ⟨obstacle, stops, none, found⟩ |
      ⟨directory, starts, only, never, ⟨refused, found⟩ | ⟨allowed, found⟩⟩
  · rw [found]
    constructor
    · rintro ⟨⟩
      exact .inl ⟨obstacle, stops, rfl⟩
    · rintro (⟨other, h, rfl⟩ | ⟨directory, starts, -⟩)
      · have same := ((resolve_eq_error possible).mpr stops).symm.trans
          ((resolve_eq_error possible).mpr h)
        cases same
        rfl
      · exact absurd starts (none directory)
  · rw [found]
    constructor
    · rintro ⟨⟩
      exact .inr ⟨directory, starts, refused, rfl⟩
    · rintro (⟨obstacle, h, -⟩ | ⟨other, h, -, rfl⟩)
      · exact absurd h (never obstacle)
      · rw [only other h]
  · rw [found]
    refine iff_of_false nofun ?_
    rintro (⟨obstacle, h, -⟩ | ⟨other, h, refused, -⟩)
    · exact never obstacle h
    · exact allowed (only other h ▸ refused)

end Unnamed

end Search

/-- **The configuration file to use**, in a tree whose files have names that can be.

One that is named is used if it is a file, and otherwise there is none to use, wherever a
search would start. Without a name it is the one in the nearest directory, at the start with
all steps up taken or above it, that has one, and there is none if no such directory has one.

This fails exactly in what follows. A path that is named, or that of the configuration file
where a search starts, is refused if it has more bytes than a path can have, or if a name with
more bytes than a name can have is met in a directory that is there. A path that leads to a file
is not refused unless it is too long as a whole, nor is that of the configuration file in a
directory that is there. And a search does not start at a path with a name that cannot be handed
to the system. -/
theorem findConfig_outcome (possible : t.Possible) (start : Option Text) :
    (∀ path, path ≠ [] →
      (∀ r, t.findConfig (some path) start = .ok (some r) ↔
        r = Route.ofText path ∧ t.HasFileAt r ∧ ¬ t.Refuses r) ∧
      (t.findConfig (some path) start = .ok none ↔
        ¬ t.HasFileAt (Route.ofText path) ∧ ¬ t.Refuses (Route.ofText path)) ∧
      ∀ f, t.findConfig (some path) start = .error f ↔
        t.Refuses (Route.ofText path) ∧ f = .unreadable (Route.ofText path).text .tooLong) ∧
    (∀ named, named = none ∨ named = some [] →
      (∀ r, t.findConfig named start = .ok (some r) ↔
        ∃ directory d, t.Starts start directory ∧ ¬ t.Refuses (configIn directory) ∧
          t.Nearest directory d ∧ r = configIn d) ∧
      (t.findConfig named start = .ok none ↔
        ∃ directory, t.Starts start directory ∧ ¬ t.Refuses (configIn directory) ∧
          ∀ d, d <+: directory → t.hasConfig d = false) ∧
      ∀ f, t.findConfig named start = .error f ↔
        (∃ obstacle, Unsearchable start obstacle ∧ f = .unsearchable obstacle) ∨
        ∃ directory, t.Starts start directory ∧ t.Refuses (configIn directory) ∧
          f = .unreadable (configIn directory).text .tooLong) ∧
    (∀ r, t.HasFileAt r → (t.Refuses r ↔ 4095 < Native.bytes r.text)) ∧
    (∀ d, t.isDirectory d = true →
      (t.Refuses (configIn d) ↔ 4095 < Native.bytes (configIn d).text)) ∧
    ∀ r : Route, (∀ name ∈ r.names, Path.IsComponent name) → Route.ofText r.text = r := by
  refine ⟨fun path given => ?_, fun named unnamed => ?_, fun r there => ?_, fun d there => ?_,
    fun r => Route.ofText_text⟩
  · rw [findConfig_named given]
    exact ⟨fun r => namedConfig_eq_some possible, namedConfig_eq_none possible,
      fun f => namedConfig_eq_error possible⟩
  · exact ⟨fun r => search_eq_some possible unnamed, search_eq_none possible unnamed,
      fun f => search_eq_error possible unnamed⟩
  · refine ⟨fun refused => ?_, fun long => ?_⟩
    · exact Nat.not_le.mp fun short => not_refuses_of_short possible there short refused
    · exact ⟨possible.clean_of_hasFileAt there, .inl long⟩
  · refine ⟨fun refused => ?_, fun long => ⟨?_, .inl long⟩⟩
    · exact Nat.not_le.mp fun short => not_refuses_of_isDirectory possible there short refused
    · have config : Native.Clean "docweave.toml" := by decide +kernel
      refine List.forall_mem_append.mpr
        ⟨fun name hname => ?_, List.forall_mem_singleton.mpr config⟩
      exact (possible.canBeName (.inl there) name hname).2

/-- A search that starts in a relative directory and steps up from one that is not there finds
the file above it, past another one at the top of the working directory. A file that is named
is used instead, but no directory is. -/
theorem findConfig_outcome_above :
    let t : FileTree := ⟨["home"], [["home", "a", "b"]],
      [(["home", "docweave.toml"], ""), (["home", "a", "docweave.toml"], ""),
        (["home", "other.toml"], "")]⟩
    t.Possible ∧
      t.findConfig (some []) (some "a/b/x/..") = .ok (some (configIn ["home", "a"])) ∧
      t.findConfig (some "./other.toml") none = .ok (some ⟨.relative, ["other.toml"]⟩) ∧
      t.findConfig (some "/home/a") none = .ok none := by
  intro t
  have possible : t.Possible :=
    ⟨by decide +kernel, by decide +kernel, by decide +kernel, by decide +kernel⟩
  have short (r : Route) (file : t.HasFileAt r) (h : Native.bytes r.text ≤ 4095) : ¬ t.Refuses r :=
    fun refused => Nat.not_lt.mpr h (((findConfig_outcome possible none).2.2.1 r file).mp refused)
  have starts : t.Starts (some "a/b/x/..") ["home", "a", "b"] :=
    .given .relative (by decide +kernel) (Place.reaches_iff.mpr (by decide +kernel))
  have allowed : ¬ t.Refuses (configIn ["home", "a", "b"]) := fun refused =>
    absurd (((findConfig_outcome possible none).2.2.2.1 _ (by decide +kernel)).mp refused)
      (by decide +kernel)
  have nearest : t.Nearest ["home", "a", "b"] ["home", "a"] :=
    find?_ancestors.mp (by decide +kernel)
  have other : t.HasFileAt ⟨.relative, ["other.toml"]⟩ :=
    ⟨["home"], ["home", "other.toml"], .relative,
      .step (by decide +kernel) (.down _ (by decide)) (.here _), by decide +kernel⟩
  refine ⟨possible, ?_, ?_, ?_⟩
  · exact ((findConfig_outcome possible _).2.1 (some []) (.inr rfl)).1 _ |>.mpr
      ⟨_, _, starts, allowed, nearest, rfl⟩
  · exact ((findConfig_outcome possible none).1 "./other.toml" (by decide)).1 _ |>.mpr
      ⟨by decide +kernel, other, short _ other (by decide +kernel)⟩
  · have written : Route.ofText "/home/a" = .ofPlace ["home", "a"] := by decide +kernel
    refine ((findConfig_outcome possible none).1 "/home/a" (by decide)).2.1.mpr ?_
    rw [written]
    refine ⟨fun there => ?_, ?_⟩
    · cases (hasFileAt_ofPlace (by decide)).mp there
    · rintro ⟨-, long | ⟨_, ⟨⟩, before, name, after, d, hnames, -, -, long⟩⟩
      · exact absurd long (by decide +kernel)
      · have names : (Route.ofPlace ["home", "a"]).names = before ++ name :: after := hnames
        have mem : name ∈ (Route.ofPlace ["home", "a"]).names := by
          rw [names]
          exact List.mem_append_right _ (List.mem_cons_self ..)
        have fits : ∀ name ∈ (Route.ofPlace ["home", "a"]).names, ¬ 255 < Native.bytes name := by
          decide +kernel
        exact fits name mem long

/-- A name that is too long is not just the name of nothing: that it is no file does not mean
that there is no file to use. -/
theorem findConfig_long_name :
    let t : FileTree := ⟨[], [], []⟩
    let path : Text := "/" ++ Text.run 256 'a'
    t.Possible ∧ ¬ t.HasFileAt (Route.ofText path) ∧
      t.findConfig (some path) none = .error (.unreadable path .tooLong) := by
  intro t path
  have given : path ≠ [] := List.cons_ne_nil _ _
  have route : Route.ofText path = .ofPlace [Text.run 256 'a'] := by decide +kernel
  have shown : (Route.ofText path).text = path := by decide +kernel
  have possible : t.Possible := ⟨by decide, by decide, by decide, by decide⟩
  have refused : t.Refuses (Route.ofText path) := by
    rw [route]
    exact ⟨by decide +kernel, .inr ⟨[], .top, [], _, [], [], rfl, .here [], rfl, by decide +kernel⟩⟩
  refine ⟨possible, ?_, ?_⟩
  · rintro ⟨here, p, -, -, file⟩
    cases file
  · rw [findConfig_named given]
    exact (namedConfig_eq_error possible).mpr
      ⟨refused, congrArg (LoadFailure.unreadable · _) shown.symm⟩

end FileTree

end Stencil
