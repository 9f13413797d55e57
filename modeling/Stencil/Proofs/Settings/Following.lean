import Mathlib.Data.List.Basic
import Stencil.Proofs.Failure
import Stencil.Proofs.Settings.Routes

/-!
# Paths that lead to files

A path is followed one name at a time, and each name is looked up in a directory that is
there. What is there has names that a file can have, so a path that leads to a file has
no other names. It is always told of such a path that it leads to a file, unless it is too
long as a whole; and a path that leads to no file is told apart from it, unless the path is
too long or there is a name in it that is. That name is met if the names before it lead to
a directory; what comes behind it does not matter.

## Main definitions

* `Place.CanBeName`, `FileTree.Possible` — names that files can have, and trees of them.
* `FileTree.StartsAt`, `FileTree.Leads` — where a path starts, and where it leads.
* `FileTree.HasFileAt`, `FileTree.Refuses` — paths that lead to a file, and paths that are
  too long or in which a name is met that is too long.

## Main results

* `FileTree.leadsToFile_eq_true`, `FileTree.leadsToFile_eq_error` — what is told of a path.
* `FileTree.leads_level` — where a path leads that has no step up.
-/

namespace Stencil

/-- Whether a name can be that of a file or a directory: it has no more bytes than a name can
have, and can be handed to the system. -/
def Place.CanBeName (name : Text) : Prop :=
  Native.bytes name ≤ 255 ∧ Native.Clean name

instance (name : Text) : Decidable (Place.CanBeName name) := inferInstanceAs (Decidable (_ ∧ _))

namespace FileTree

/-- A tree whose files and directories have names that can be. The names of the working
directory are no steps up. -/
structure Possible (t : FileTree) : Prop where
  workingDirectory : ∀ name ∈ t.workingDirectory, Place.CanBeName name
  level : Place.parentName ∉ t.workingDirectory
  directories : ∀ d ∈ t.directories, ∀ name ∈ d, Place.CanBeName name
  files : ∀ f ∈ t.files, ∀ name ∈ f.1, Place.CanBeName name

/-- Where a path starts: at the top, unless it is relative. -/
inductive StartsAt (t : FileTree) : Anchor → Place → Prop
  | relative : StartsAt t .relative t.workingDirectory
  | top : StartsAt t .top []
  | doubled : StartsAt t .doubled []

/-- Where some names lead from some place, each of them being looked up in a directory. -/
inductive Leads (t : FileTree) : Place → List Text → Place → Prop
  | here (p : Place) : Leads t p [] p
  | step {here next p : Place} {name : Text} {names : List Text}
      (directory : t.isDirectory here = true) (moves : here.Moves name next)
      (rest : Leads t next names p) : Leads t here (name :: names) p

/-- A path that leads to a file. -/
def HasFileAt (t : FileTree) (r : Route) : Prop :=
  ∃ here p, t.StartsAt r.anchor here ∧ t.Leads here r.names p ∧ t.isFile p = true

/-- A name that is too long, after others that lead to a directory. -/
def Meets (t : FileTree) (here : Place) (names : List Text) : Prop :=
  ∃ before name after d, names = before ++ name :: after ∧ t.Leads here before d ∧
    t.isDirectory d = true ∧ 255 < Native.bytes name

/-- A path that can be handed to the system and has more bytes than a path can have, or in
which a name is met that has more bytes than a name can have. -/
def Refuses (t : FileTree) (r : Route) : Prop :=
  (∀ name ∈ r.names, Native.Clean name) ∧
    (4095 < Native.bytes r.text ∨ ∃ here, t.StartsAt r.anchor here ∧ t.Meets here r.names)

variable {t : FileTree} {here p : Place} {names : List Text} {r : Route}

theorem startsAt_iff : t.StartsAt r.anchor here ↔ t.base r = here := by
  rw [base]
  constructor
  · intro h
    generalize r.anchor = anchor at h
    cases h <;> rfl
  · cases r.anchor with
    | relative => rintro rfl; exact .relative
    | top => rintro rfl; exact .top
    | doubled => rintro rfl; exact .doubled

theorem isTooLong_iff {name : Text} : isTooLong name = true ↔ 255 < Native.bytes name := by
  rw [← Native.size_eq]
  exact decide_eq_true_iff

/-! ## Following a path -/

/-- Names that can be followed lead somewhere. -/
theorem leads_of_visit (h : t.visit here names = .ok p) : t.Leads here names p := by
  induction names generalizing here with
  | nil =>
      cases h
      exact .here p
  | cons name names ih =>
      rw [visit] at h
      split at h
      · next directory =>
        split at h
        · cases h
        · exact .step directory (Place.moves_step here name) (ih h)
      · cases h

/-- Names that cannot be followed for the length of one of them meet that name. -/
theorem meets_of_visit (h : t.visit here names = .error .tooLong) : t.Meets here names := by
  induction names generalizing here with
  | nil => cases h
  | cons name names ih =>
      rw [visit] at h
      split at h
      · next directory =>
        split at h
        · next long =>
          exact ⟨[], name, names, here, rfl, .here here, directory, isTooLong_iff.mp long⟩
        · obtain ⟨before, other, after, d, rfl, leads, there, long⟩ := ih h
          exact ⟨name :: before, other, after, d, rfl,
            .step directory (Place.moves_step here name) leads, there, long⟩
      · split at h <;> cases h

/-- Names that lead somewhere are followed, up to there, if they are not too long. -/
theorem visit_of_leads (leads : t.Leads here names p) (after : List Text)
    (short : ∀ name ∈ names, Place.CanBeName name) :
    t.visit here (names ++ after) = t.visit p after := by
  induction leads with
  | here p => rfl
  | @step here next p name names directory moves rest ih =>
      obtain ⟨hname, hnames⟩ := List.forall_mem_cons.mp short
      have fits : isTooLong name = false :=
        Bool.eq_false_iff.mpr fun long => Nat.not_lt.mpr hname.1 (isTooLong_iff.mp long)
      rw [List.cons_append, visit, if_pos directory, fits, Place.moves_iff.mp moves]
      exact ih hnames

/-! ## Names on the way -/

/-- Whether there is anything at a place. -/
def Present (t : FileTree) (p : Place) : Prop := t.isDirectory p = true ∨ t.isFile p = true

theorem mem_of_lookup {content : Text} (h : t.files.lookup p = some content) :
    ∃ f ∈ t.files, f.1 = p := by
  obtain ⟨before, after, hfiles, -⟩ := List.lookup_eq_some_iff.mp h
  exact ⟨(p, content), hfiles ▸ List.mem_append_right _ (List.mem_cons_self ..), rfl⟩

/-- What is there has names that can be. -/
theorem Possible.canBeName (possible : t.Possible) (present : t.Present p) :
    ∀ name ∈ p, Place.CanBeName name := by
  intro name hname
  rcases present with directory | file
  · simp only [isDirectory, Bool.or_eq_true, List.any_eq_true, Bool.and_eq_true] at directory
    rcases directory with (below | ⟨d, hd, below⟩) | ⟨f, hf, below, -⟩
    · exact possible.workingDirectory name ((List.isPrefixOf_iff_prefix.mp below).subset hname)
    · exact possible.directories d hd name ((List.isPrefixOf_iff_prefix.mp below).subset hname)
    · exact possible.files f hf name ((List.isPrefixOf_iff_prefix.mp below).subset hname)
  · obtain ⟨content, found⟩ := Option.isSome_iff_exists.mp file
    obtain ⟨f, hf, rfl⟩ := mem_of_lookup found
    exact possible.files f hf name hname

/-- The name that leads back up can be a name. -/
theorem canBeName_parent : Place.CanBeName Place.parentName := by decide

/-- A step to a place that is there is taken by a name that can be. -/
theorem Possible.canBeName_of_moves (possible : t.Possible) {next : Place} {name : Text}
    (moves : here.Moves name next) (present : t.Present next) : Place.CanBeName name := by
  cases moves with
  | down =>
      exact possible.canBeName present name (List.mem_append_right _ (List.mem_singleton_self name))
  | up => exact canBeName_parent
  | stay => exact canBeName_parent

/-- Where a path starts there is something, if there is where it ends. -/
theorem Leads.present (leads : t.Leads here names p) (present : t.Present p) : t.Present here := by
  cases leads with
  | here => exact present
  | step directory => exact .inl directory

/-- What leads to a place that is there are names that can be. -/
theorem Possible.canBeName_of_leads (possible : t.Possible) (leads : t.Leads here names p)
    (present : t.Present p) : ∀ name ∈ names, Place.CanBeName name := by
  induction leads with
  | here => exact nofun
  | step directory moves rest ih =>
      exact List.forall_mem_cons.mpr
        ⟨possible.canBeName_of_moves moves (rest.present present), ih present⟩

/-- A path to a file can be handed to the system. -/
theorem Possible.clean_of_hasFileAt (possible : t.Possible) (there : t.HasFileAt r) :
    ∀ name ∈ r.names, Native.Clean name := by
  obtain ⟨here, p, -, leads, file⟩ := there
  exact fun name hname => (possible.canBeName_of_leads leads (.inr file) name hname).2

/-! ## What is told of a path -/

/-- Reading starts with following the path, if the system can be asked. -/
theorem read_eq_visit (clean : ∀ name ∈ r.names, Native.Clean name)
    (short : Native.bytes r.text ≤ 4095) :
    t.read r = t.visit (t.base r) r.names >>= fun p =>
      match t.files.lookup p with
      | some content => .ok content.withLineFeeds
      | none => .error (if t.isDirectory p then .directory else .missing) := by
  have asked : ¬ pathBytes < Native.size r.text := Nat.not_lt.mpr (Native.size_eq _ ▸ short)
  rw [read, Route.obstacle?_text_eq_none.mpr clean]
  exact if_neg asked

/-- Reading ends before the path is followed, or goes on. -/
theorem read_cases (t : FileTree) (r : Route) :
    (∃ name ∈ r.names, ¬ Native.Clean name) ∧
      (∃ obstacle, t.read r = .error (.unnamed obstacle)) ∨
    (∀ name ∈ r.names, Native.Clean name) ∧
      (4095 < Native.bytes r.text ∧ t.read r = .error .tooLong ∨ Native.bytes r.text ≤ 4095) := by
  cases hobstacle : Native.obstacle? r.text with
  | some obstacle =>
      refine .inl ⟨?_, obstacle, by simp only [read, hobstacle]⟩
      by_contra clean
      push Not at clean
      cases (Route.obstacle?_text_eq_none.mpr clean).symm.trans hobstacle
  | none =>
      refine .inr ⟨Route.obstacle?_text_eq_none.mp hobstacle, ?_⟩
      rcases Nat.lt_or_ge 4095 (Native.bytes r.text) with long | short
      · have long' : pathBytes < Native.size r.text := (Native.size_eq _).symm ▸ long
        exact .inl ⟨long, by simp only [read, hobstacle, if_pos long']⟩
      · exact .inr short

/-- **A path that leads to a file** can be read if it is not too long, and no other. -/
theorem exists_read_iff (possible : t.Possible) :
    (∃ content, t.read r = .ok content) ↔ t.HasFileAt r ∧ Native.bytes r.text ≤ 4095 := by
  constructor
  · rintro ⟨content, h⟩
    rcases read_cases t r with ⟨-, obstacle, failed⟩ | ⟨clean, ⟨-, failed⟩ | short⟩
    · cases failed.symm.trans h
    · cases failed.symm.trans h
    · rw [read_eq_visit clean short] at h
      obtain ⟨p, visited, h⟩ := bind_eq_ok.mp h
      refine ⟨⟨t.base r, p, startsAt_iff.mpr rfl, leads_of_visit visited, ?_⟩, short⟩
      cases found : t.files.lookup p with
      | none =>
          rw [found] at h
          cases h
      | some content => rw [isFile, found]; rfl
  · rintro ⟨⟨here, p, starts, leads, file⟩, short⟩
    have names := possible.canBeName_of_leads leads (.inr file)
    have visited := visit_of_leads leads [] names
    rw [List.append_nil] at visited
    obtain ⟨content, found⟩ := Option.isSome_iff_exists.mp file
    refine ⟨content.withLineFeeds, ?_⟩
    rw [read_eq_visit (fun name hname => (names name hname).2) short, startsAt_iff.mp starts,
      visited, visit]
    show (match t.files.lookup p with | some content => _ | none => _) = _
    rw [found]

/-- Reading is refused for the length of a path or of a name in it. -/
theorem read_eq_tooLong (possible : t.Possible) : t.read r = .error .tooLong ↔ t.Refuses r := by
  rcases read_cases t r with
    ⟨⟨name, hname, unclean⟩, obstacle, failed⟩ | ⟨clean, ⟨long, failed⟩ | short⟩
  · rw [failed]
    exact iff_of_false nofun fun h => unclean (h.1 name hname)
  · exact iff_of_true failed ⟨clean, .inl long⟩
  · rw [read_eq_visit clean short]
    constructor
    · intro h
      refine ⟨clean, .inr ⟨t.base r, startsAt_iff.mpr rfl, ?_⟩⟩
      rcases bind_eq_error.mp h with h | ⟨p, -, h⟩
      · exact meets_of_visit h
      · split at h
        · cases h
        · split at h <;> cases h
    · rintro ⟨-, long | ⟨here, starts, before, name, after, d, hnames, leads, directory, long⟩⟩
      · exact absurd long (Nat.not_lt.mpr short)
      · have names := possible.canBeName_of_leads leads (.inl directory)
        rw [startsAt_iff.mp starts, hnames, visit_of_leads leads (name :: after) names, visit,
          if_pos directory, if_pos (isTooLong_iff.mpr long)]
        rfl

/-- A path that leads to a file and is refused is too long as a whole. -/
theorem not_refuses_of_short (possible : t.Possible) (there : t.HasFileAt r)
    (short : Native.bytes r.text ≤ 4095) : ¬ t.Refuses r := by
  obtain ⟨content, ok⟩ := (exists_read_iff possible).mpr ⟨there, short⟩
  exact fun refused => by cases ok.symm.trans ((read_eq_tooLong possible).mpr refused)

/-- It is told of the paths that lead to a file and are not refused that they do. -/
theorem leadsToFile_eq_true (possible : t.Possible) :
    t.leadsToFile r = .ok true ↔ t.HasFileAt r ∧ ¬ t.Refuses r := by
  have read : t.leadsToFile r = .ok true ↔ ∃ content, t.read r = .ok content := by
    rw [leadsToFile]
    cases t.read r with
    | ok content => simp
    | error obstacle => cases obstacle <;> simp
  rw [read, exists_read_iff possible]
  refine and_congr_right fun there => ⟨not_refuses_of_short possible there, fun allowed => ?_⟩
  exact Nat.not_lt.mp fun long => allowed ⟨possible.clean_of_hasFileAt there, .inl long⟩

/-- It cannot be told of the paths that are refused. -/
theorem leadsToFile_eq_error (possible : t.Possible) {obstacle : Obstacle} :
    t.leadsToFile r = .error obstacle ↔ obstacle = .tooLong ∧ t.Refuses r := by
  rw [← read_eq_tooLong possible, leadsToFile]
  cases t.read r with
  | ok content => simp
  | error other => cases other <;> simp [eq_comm]

/-! ## Paths without steps up -/

/-- Names without steps up lead down through directories. -/
theorem leads_level (level : ∀ name ∈ names, name ≠ Place.parentName) :
    t.Leads here names p ↔ p = here ++ names ∧
      ∀ before after, names = before ++ after → after ≠ [] →
        t.isDirectory (here ++ before) = true := by
  induction names generalizing here with
  | nil =>
      rw [List.append_nil]
      constructor
      · rintro ⟨⟩
        exact ⟨rfl, fun before after h hne => absurd (List.append_eq_nil_iff.mp h.symm).2 hne⟩
      · rintro ⟨rfl, -⟩
        exact .here p
  | cons name names ih =>
      obtain ⟨hname, hnames⟩ := List.forall_mem_cons.mp level
      have down : here.step name = here ++ [name] := if_neg hname
      constructor
      · rintro (_ | ⟨directory, moves, rest⟩)
        cases down.symm.trans (Place.moves_iff.mp moves)
        obtain ⟨rfl, below⟩ := (ih hnames).mp rest
        refine ⟨by simp, fun before after h hne => ?_⟩
        cases before with
        | nil => rwa [List.append_nil]
        | cons first before =>
            obtain ⟨rfl, rfl⟩ := List.cons.inj h
            simpa using below before after rfl hne
      · rintro ⟨rfl, below⟩
        have directory : t.isDirectory here = true := by
          simpa using below [] (name :: names) rfl nofun
        refine .step directory (Place.moves_iff.mpr down)
          ((ih hnames).mpr ⟨by simp, fun before after h hne => ?_⟩)
        simpa [h] using below (name :: before) after (by rw [h]; rfl) hne

/-- What is above a file is a directory. -/
theorem isDirectory_of_above {before after : Place} (file : t.isFile (before ++ after) = true)
    (hne : after ≠ []) : t.isDirectory before = true := by
  obtain ⟨content, found⟩ := Option.isSome_iff_exists.mp file
  obtain ⟨f, hf, hplace⟩ := mem_of_lookup found
  simp only [isDirectory, Bool.or_eq_true, List.any_eq_true, Bool.and_eq_true, decide_eq_true_eq]
  refine .inr ⟨f, hf, ?_, ?_⟩
  · rw [hplace]
    exact List.isPrefixOf_iff_prefix.mpr (List.prefix_append ..)
  · rw [hplace, List.length_append]
    exact Nat.lt_add_of_pos_right (List.length_pos_iff.mpr hne)

/-- The path to a place leads to a file exactly if the place is that of one. -/
theorem hasFileAt_ofPlace (level : ∀ name ∈ p, name ≠ Place.parentName) :
    t.HasFileAt (.ofPlace p) ↔ t.isFile p = true := by
  constructor
  · rintro ⟨_, q, ⟨⟩, leads, file⟩
    have leads : t.Leads [] p q := leads
    rwa [((leads_level level).mp leads).1] at file
  · intro file
    refine ⟨[], p, .top, (leads_level level).mpr ⟨rfl, fun before after h hne => ?_⟩, file⟩
    exact isDirectory_of_above (h ▸ file) hne

end FileTree

end Stencil
