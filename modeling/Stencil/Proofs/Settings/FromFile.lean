import Stencil.Proofs.Settings.Checks
import Stencil.Proofs.Text.Named

/-!
# Settings read from a file

A configuration file is read twice when settings are loaded: once as a
configuration, in which the switches for logging stand in a section and whatever is
not in a section does not count, and once as settings, in which the same switches
have names of their own and every name has to be known. So a file can be a
configuration and still not give its settings. What decides is the names beside the
two sections: none may be unknown, and a switch for logging that the section leaves
out must not be on, or unreadable, under its own name.

## Main definitions

* `Environment.Silent` — no variable is meant for the settings.
* `Settings.Agrees` — settings say what a configuration says.
* `Settings.lifted` — what a file says, in the names of the settings.
* `Settings.ReadAlike` — what makes settings agree with the configuration.

## Main results

* `Agreement.source_silent` — a silent environment says nothing.
* `Settings.find?_lifted` — where a setting is read from.
* `Settings.settings_of_file` — what is loaded from a file that is a configuration.
-/

namespace Stencil

/-! ## Environments that say nothing -/

/-- What the name of every variable that is meant for the settings begins with, as
names are compared. -/
def Environment.beginning : Text := "docweave_"

/-- No variable is meant for the settings. -/
def Environment.Silent (env : Environment) : Prop :=
  ∀ v ∈ env, Text.startsWith Environment.beginning v.1.toLower = false

namespace Agreement

variable {env : Environment}

theorem beginning_nameOf (name : Text) :
    Environment.beginning <+: nameOf {} (beginning {} ++ name) := by
  have cut : nameOf {} (beginning {} ++ name) = Environment.beginning ++ name.toLower :=
    List.map_append
  exact cut ▸ List.prefix_append ..

theorem bindings_silent (silent : env.Silent) :
    ∀ v ∈ bindings {} env, Text.startsWith Environment.beginning v.1 = false := by
  refine Named.forall_mem_ofList
    (P := fun v : Text × Value => Text.startsWith Environment.beginning v.1 = false)
    (List.forall_mem_map.mpr fun v hv => ?_)
  exact silent v (List.mem_of_mem_filter hv)

section Silent

variable {bs : List (Text × Value)}
  (silent : ∀ v ∈ bs, Text.startsWith Environment.beginning v.1 = false)

include silent

theorem lookup_silent (name : Text) : bs.lookup (nameOf {} (beginning {} ++ name)) = none := by
  refine List.lookup_eq_none_iff.mpr fun v hv => bne_iff_ne.mpr fun same => ?_
  exact Bool.eq_false_iff.mp (silent v hv)
    (List.isPrefixOf_iff_prefix.mpr (same ▸ beginning_nameOf name))

theorem nested_silent (name : Text) : nested {} name bs = [] := by
  have start : Environment.beginning <+: nameOf {} (beginning {} ++ name) ++ delimiter {} :=
    (beginning_nameOf name).trans (List.prefix_append ..)
  unfold nested
  split
  · rfl
  · clear * - silent start
    -- no step of the fold writes: what goes below the section begins as the section does
    induction bs with
    | nil => rfl
    | cons v bs ih =>
        obtain ⟨hv, hbs⟩ := List.forall_mem_cons.mp silent
        rw [List.foldl_cons, if_neg]
        · exact ih hbs
        · intro within
          refine Bool.eq_false_iff.mp hv (List.isPrefixOf_iff_prefix.mpr ?_)
          exact start.trans (List.isPrefixOf_iff_prefix.mp within)

end Silent

/-- **A silent environment** says nothing. -/
theorem source_silent (silent : env.Silent) : (ofCaller []).source env = .ok [] := by
  have hbs := bindings_silent silent
  have usual : ofCaller [] = {} := rfl
  rw [usual]
  simp only [source, loader, option, lookup_silent hbs, nested_silent hbs]
  rfl

end Agreement

namespace Settings

variable {es : List (Value × Value)} {name : Text}

/-- Settings say what a configuration says. -/
structure Agrees (s : Settings) (c : Config) : Prop where
  loader : s.loader = c.loader
  verbose : s.verbose = c.logging.verbose
  logJson : s.logJson = c.logging.json

/-! ## A file in the names of the settings -/

/-- The entries of the section on logging. -/
def loggingEntries (es : List (Value × Value)) : List (Value × Value) :=
  match Keyed.find? (.str "logging") es with
  | some (.map ls) => ls
  | _ => []

/-- What a file says, in the names of the settings: what the section on logging says
comes on top of everything outside of it. -/
def lifted (es : List (Value × Value)) : List (Value × Value) :=
  putSome "log_json" (Keyed.find? (.str "json") (loggingEntries es))
    (putSome "verbose" (Keyed.find? (.str "verbose") (loggingEntries es))
      (es.filter fun e => !e.1.same (.str "logging")))

/-- A section on logging that can be read is a table or not there. -/
theorem logging_ofEntries {c : Config} (valid : Config.ofEntries es = .ok c) :
    switchField false "verbose" (loggingEntries es) = .ok c.logging.verbose ∧
      switchField false "json" (loggingEntries es) = .ok c.logging.json ∧
      fileSource es = .ok (lifted es) := by
  have logging := (Config.ofEntries_eq_ok.mp valid).2
  unfold Checked.field at logging
  unfold fileSource lifted loggingEntries
  split at logging
  · next absent =>
    rw [absent, ← Except.ok.inj logging]
    exact ⟨rfl, rfl, rfl⟩
  · next v found =>
    obtain ⟨ls, rfl, verbose, json⟩ :=
      LoggingConfig.ofValue_eq_ok.mp (Checked.within_eq_ok.mp logging)
    rw [found]
    exact ⟨verbose, json, rfl⟩

theorem find?_putSome (name other : Text) (v : Option Value) (es : List (Value × Value)) :
    Keyed.find? (.str name) (putSome other v es) =
      if other = name then v.or (Keyed.find? (.str name) es) else Keyed.find? (.str name) es := by
  cases v with
  | none => simp [putSome]
  | some v => rw [putSome, Keyed.find?_insert_str, Option.some_or]

/-- The settings of which the section on logging speaks, with their names in it. -/
def loggingNames : List (Text × Text) := [("verbose", "verbose"), ("log_json", "json")]

/-- A setting is read from the section on logging if that speaks of it, or else from outside
of the section. -/
theorem find?_lifted (name : Text) (other : name ≠ "logging") (es : List (Value × Value)) :
    Keyed.find? (.str name) (lifted es) =
      ((loggingNames.lookup name).bind fun own =>
        Keyed.find? (.str own) (loggingEntries es)).or (Keyed.find? (.str name) es) := by
  rw [lifted, find?_putSome, find?_putSome, Keyed.find?_filter_str other]
  by_cases json : ("log_json" : Text) = name
  · subst json
    rfl
  · by_cases verbose : ("verbose" : Text) = name
    · subst verbose
      rfl
    · have unspoken : loggingNames.lookup name = none := by
        simp [loggingNames, List.lookup_eq_none_iff, Ne.symm json, Ne.symm verbose]
      rw [if_neg json, if_neg verbose, unspoken]
      rfl

theorem forall_putSome {P : Value → Prop} (holds : P (.str name)) (v : Option Value) :
    (∀ e ∈ putSome name v es, P e.1) ↔ ∀ e ∈ es, P e.1 := by
  cases v with
  | none => rfl
  | some v => exact Keyed.forall_insert_str v holds

/-- The names of a file in the names of the settings are the names outside of the
section on logging, apart from the switches for logging. -/
theorem forall_lifted {P : Value → Prop} (verbose : P (.str "verbose"))
    (logJson : P (.str "log_json")) :
    (∀ e ∈ lifted es, P e.1) ↔ ∀ e ∈ es, e.1 ≠ .str "logging" → P e.1 := by
  rw [lifted, forall_putSome logJson, forall_putSome verbose, List.forall_mem_filter]
  simp only [Bool.not_eq_true', Bool.eq_false_iff, ne_eq, Value.same_str_iff]

/-! ## Reading alike -/

/-- What makes settings agree with the configuration that the same file gives. -/
structure ReadAlike (es : List (Value × Value)) : Prop where
  /-- Every name is that of the section on logging or that of a setting. -/
  known : ∀ e ∈ es, e.1 ≠ .str "logging" → ∃ name ∈ names, e.1 = .str name
  /-- A switch that the section leaves out is off under its own name. -/
  verbose : Keyed.find? (.str "verbose") (loggingEntries es) = none →
    switchField false "verbose" es = .ok false
  logJson : Keyed.find? (.str "json") (loggingEntries es) = none →
    switchField false "log_json" es = .ok false

/-- A file with nothing but the two sections has no other name. -/
theorem find?_of_sections (h : ∀ e ∈ es, e.1 = .str "loader" ∨ e.1 = .str "logging")
    (loader : name ≠ "loader") (logging : name ≠ "logging") :
    Keyed.find? (.str name) es = none := by
  refine Option.eq_none_iff_forall_ne_some.mpr fun v found => ?_
  rcases h _ (Keyed.mem_of_find?_str found) with heq | heq
  · exact loader (Value.str.inj heq)
  · exact logging (Value.str.inj heq)

theorem switchField_absent (absent : Keyed.find? (.str name) es = none) :
    switchField false name es = .ok false := by
  rw [switchField, Checked.field, absent]

/-- A file with nothing but the two sections reads alike. -/
theorem ReadAlike.of_sections (h : ∀ e ∈ es, e.1 = .str "loader" ∨ e.1 = .str "logging") :
    ReadAlike es where
  known e he hlogging := ⟨"loader", by decide, (h e he).resolve_right hlogging⟩
  verbose _ := switchField_absent (find?_of_sections h (by decide) (by decide))
  logJson _ := switchField_absent (find?_of_sections h (by decide) (by decide))

section Switch

variable {own : Text} {on : Bool}
  (found : Keyed.find? (.str own) (lifted es) =
    (Keyed.find? (.str name) (loggingEntries es)).or (Keyed.find? (.str own) es))
  (inside : switchField false name (loggingEntries es) = .ok on)

include found inside

/-- A switch for logging is read as the section says it, or from outside of a section
that leaves it out. -/
theorem lifted_switch :
    (switchField false own (lifted es) = .ok on ∧
      Keyed.find? (.str name) (loggingEntries es) ≠ none) ∨
    (switchField false own (lifted es) = switchField false own es ∧
      Keyed.find? (.str name) (loggingEntries es) = none ∧ on = false) := by
  unfold switchField Checked.field at *
  cases hsection : Keyed.find? (.str name) (loggingEntries es) with
  | some v =>
      rw [hsection] at found inside
      rw [found, Option.some_or]
      exact .inl ⟨Checked.within_eq_ok.mpr (Checked.within_eq_ok.mp inside), nofun⟩
  | none =>
      rw [hsection] at found inside
      rw [found, Option.none_or]
      exact .inr ⟨rfl, rfl, (Except.ok.inj inside).symm⟩

/-- A switch for logging is read as in the section exactly if the section has it or it
is off outside. -/
theorem lifted_switch_eq_ok :
    switchField false own (lifted es) = .ok on ↔
      (Keyed.find? (.str name) (loggingEntries es) = none →
        switchField false own es = .ok false) := by
  rcases lifted_switch found inside with ⟨read, there⟩ | ⟨read, absent, rfl⟩
  · exact iff_of_true read fun absent => absurd absent there
  · rw [read]
    exact (imp_iff_right absent).symm

theorem eq_of_lifted_switch {read : Bool} (h : switchField false own (lifted es) = .ok read)
    (there : Keyed.find? (.str name) (loggingEntries es) ≠ none) : read = on := by
  have asInside := (lifted_switch_eq_ok found inside).mpr fun absent => absurd absent there
  exact Except.ok.inj (h.symm.trans asInside)

/-- What is reported of a switch for logging is reported of its own name. -/
theorem breaches_lifted_switch :
    ∀ b ∈ (switchField false own (lifted es)).breaches,
      ∃ v, (.str own, v) ∈ es ∧ b.path = [own] := by
  intro b hb
  rcases lifted_switch found inside with ⟨read, -⟩ | ⟨read, -, -⟩
  · rw [read] at hb
    cases hb
  · rcases switchField_cases false own es with ⟨on, outside⟩ | ⟨v, rule, hv, outside⟩
    · rw [read, outside] at hb
      cases hb
    · rw [read, outside] at hb
      exact ⟨v, hv, List.mem_singleton.mp hb ▸ rfl⟩

end Switch

/-- A breach about a name beside the two sections. -/
def BesideSections (es : List (Value × Value)) (b : Breach) : Prop :=
  ∃ e ∈ es, e.1 ≠ .str "loader" ∧ e.1 ≠ .str "logging" ∧ b.path = [e.1.display]

theorem BesideSections.of_name {v : Value} {b : Breach} (he : (.str name, v) ∈ es)
    (loader : name ≠ "loader") (logging : name ≠ "logging") (path : b.path = [name]) :
    BesideSections es b :=
  ⟨_, he, mt Value.str.inj loader, mt Value.str.inj logging, path⟩

theorem breaches_knownName (key : Value) :
    ∀ b ∈ (knownName key).breaches, key ≠ .str "loader" ∧ b.path = [key.display] := by
  intro b hb
  rcases knownName_cases key with known | unknown
  · rw [known] at hb
    cases hb
  · have path : b.path = [key.display] := by
      rw [unknown] at hb
      exact List.mem_singleton.mp hb ▸ rfl
    refine ⟨fun loader => ?_, path⟩
    have known : knownName key = .ok () := knownName_eq_ok.mpr ⟨"loader", by decide, loader⟩
    cases known.symm.trans unknown

section Sections

variable {c : Config} (sections : Config.ofEntries es = .ok c)

include sections

theorem loader_lifted :
    Checked.field LoaderConfig.ofValue {} "loader" (lifted es) = .ok c.loader := by
  rw [Checked.field, find?_lifted "loader" (by decide)]
  exact (Config.ofEntries_eq_ok.mp sections).1

/-- **Settings agree with the configuration** of the same file exactly if the file reads
alike. -/
theorem exists_agrees_iff (path : Option Text) :
    (∃ s, ofEntries path (lifted es) = .ok s ∧ s.Agrees c) ↔ ReadAlike es := by
  obtain ⟨verbose, json, -⟩ := logging_ofEntries sections
  have verboseAlike := lifted_switch_eq_ok (find?_lifted "verbose" (by decide) es) verbose
  have logJsonAlike := lifted_switch_eq_ok (find?_lifted "log_json" (by decide) es) json
  -- the two switches are names of settings, so lifting them adds no unknown name
  have knownAlike : (∀ e ∈ lifted es, ∃ name ∈ names, e.1 = .str name) ↔
      ∀ e ∈ es, e.1 ≠ .str "logging" → ∃ name ∈ names, e.1 = .str name :=
    forall_lifted (P := fun k => ∃ name ∈ names, k = .str name)
      ⟨_, by decide, rfl⟩ ⟨_, by decide, rfl⟩
  constructor
  · rintro ⟨s, read, agrees⟩
    obtain ⟨-, hverbose, hlogJson, -, known⟩ := ofEntries_eq_ok.mp read
    exact {
      known := knownAlike.mp known
      verbose := verboseAlike.mp (agrees.verbose ▸ hverbose)
      logJson := logJsonAlike.mp (agrees.logJson ▸ hlogJson) }
  · intro alike
    refine ⟨⟨path, c.logging.verbose, c.logging.json, c.loader⟩, ?_, rfl, rfl, rfl⟩
    exact ofEntries_eq_ok.mpr ⟨rfl, verboseAlike.mpr alike.verbose,
      logJsonAlike.mpr alike.logJson, loader_lifted sections, knownAlike.mpr alike.known⟩

/-- What is reported of a file that is a configuration is about names beside the two
sections. -/
theorem breaches_lifted (path : Option Text) :
    ∀ b ∈ (ofEntries path (lifted es)).breaches, BesideSections es b := by
  obtain ⟨verbose, json, -⟩ := logging_ofEntries sections
  have unknown : ∀ e ∈ lifted es, ∀ b ∈ (knownName e.1).breaches, BesideSections es b := by
    refine (forall_lifted (P := fun k => ∀ b ∈ (knownName k).breaches, BesideSections es b)
      nofun nofun).mpr fun e he logging b hb => ?_
    obtain ⟨loader, path⟩ := breaches_knownName e.1 b hb
    exact ⟨e, he, loader, logging, path⟩
  intro b hb
  rw [breaches_ofEntries, loader_lifted sections, Checked.breaches_ok, List.append_nil,
    List.mem_append, List.mem_append, List.mem_flatMap] at hb
  rcases hb with (hb | hb) | ⟨e, he, hb⟩
  · obtain ⟨v, hv, path⟩ :=
      breaches_lifted_switch (find?_lifted "verbose" (by decide) es) verbose b hb
    exact .of_name hv (by decide) (by decide) path
  · obtain ⟨v, hv, path⟩ :=
      breaches_lifted_switch (find?_lifted "log_json" (by decide) es) json b hb
    exact .of_name hv (by decide) (by decide) path
  · exact unknown e he b hb

/-- Something is reported of a file that is a configuration if its settings are not read. -/
theorem ofEntries_lifted_ne_nil (path : Option Text) : ofEntries path (lifted es) ≠ .error [] := by
  intro failed
  have nothing : (ofEntries path (lifted es)).breaches = [] := by rw [failed]; rfl
  simp only [breaches_ofEntries, List.append_eq_nil_iff, List.flatMap_eq_nil_iff] at nothing
  obtain ⟨⟨⟨hverbose, hlogJson⟩, -⟩, hnames⟩ := nothing
  have silent {own : Text} (h : (switchField false own (lifted es)).breaches = []) :
      ∃ on, switchField false own (lifted es) = .ok on := by
    refine (switchField_cases false own (lifted es)).resolve_right ?_
    rintro ⟨_, _, -, reported⟩
    rw [reported] at h
    cases h
  have known : ∀ e ∈ lifted es, ∃ name ∈ names, e.1 = .str name := by
    intro e he
    refine knownName_eq_ok.mp ((knownName_cases e.1).resolve_right fun unknown => ?_)
    have unreported := hnames e he
    rw [unknown] at unreported
    cases unreported
  obtain ⟨verbose, verboseRead⟩ := silent hverbose
  obtain ⟨logJson, logJsonRead⟩ := silent hlogJson
  have read : ofEntries path (lifted es) = .ok ⟨path, verbose, logJson, c.loader⟩ :=
    ofEntries_eq_ok.mpr ⟨rfl, verboseRead, logJsonRead, loader_lifted sections, known⟩
  cases failed.symm.trans read

end Sections

/-! ## Loading -/

variable {t : FileTree} {env : Environment} {named start : Option Text} {file : Route} {c : Config}

theorem loadConfig_eq_ok (content : t.readToml file = .ok es) :
    t.loadConfig file = .ok c ↔ Config.ofEntries es = .ok c := by
  simp only [FileTree.loadConfig, bind_eq_ok, content, Except.ok.injEq, exists_eq_left']
  split <;> simp [*]

/-- A file that can be read is used if its path is given. -/
theorem chooseFile_named {path : Text} (written : Route.ofText path = file)
    (content : t.readToml file = .ok es) :
    chooseFile t env (some path) start = .ok (some file) := by
  have there : t.hasFile file = .ok true := by
    unfold FileTree.readToml at content
    unfold FileTree.hasFile FileTree.leadsToFile
    split at content
    · cases content
    · next read => rw [read]; rfl
  simp [chooseFile, FileTree.namedConfig, written, there, bind, Except.bind, pure, Except.pure]

/-- **Settings from a file alone**: what is loaded in a silent environment, without
anything given, is what the file says in the names of the settings. -/
theorem load_silent (silent : env.Silent)
    (chosen : chooseFile t env named start = .ok (some file))
    (content : t.readToml file = .ok es) (valid : t.loadConfig file = .ok c) :
    load t env named start [] =
      (ofEntries (some file.text) (lifted es)).mapError .rejected := by
  have written := (logging_ofEntries ((loadConfig_eq_ok content).mp valid)).2.2
  have own : ownArguments.find? (fun name => List.any [] fun g : Text × Value => g.1 = name) =
      none := rfl
  have alone : layered (givenEntries []) [] (lifted es) = lifted es := by
    rw [layered, show givenEntries [] = [] from rfl, Value.mergeEntriesOver, Value.mergeEntriesOver]
  simp only [load, own, chosen, valid, content, written, Agreement.source_silent silent,
    List.filter_nil, alone, Option.map_some, bind, Except.bind]
  cases ofEntries (some file.text) (lifted es) <;> rfl

/-- **Settings of a configuration file.** Let a file be a configuration, and let it be
the one that is used, in a silent environment and without anything given. Then settings
that say what the configuration says are loaded if and only if the file reads alike,
which it does if it has nothing but the two sections. Whatever settings are loaded have
the file's path, the loader of the configuration and each switch that the section on
logging has. And if none are loaded, the failure does not name the file, and it is about
names beside the two sections. -/
theorem settings_of_file (silent : env.Silent)
    (chosen : chooseFile t env named start = .ok (some file))
    (content : t.readToml file = .ok es) (valid : t.loadConfig file = .ok c) :
    ((∃ s, load t env named start [] = .ok s ∧ s.Agrees c) ↔ ReadAlike es) ∧
    ((∀ e ∈ es, e.1 = .str "loader" ∨ e.1 = .str "logging") → ReadAlike es) ∧
    (∀ s, load t env named start [] = .ok s →
      s.configPath = some file.text ∧ s.loader = c.loader ∧
      (Keyed.find? (.str "verbose") (loggingEntries es) ≠ none → s.verbose = c.logging.verbose) ∧
      (Keyed.find? (.str "json") (loggingEntries es) ≠ none → s.logJson = c.logging.json)) ∧
    (∀ f, load t env named start [] = .error f →
      f.toError? = none ∧
        ∃ bs, f = .rejected bs ∧ bs ≠ [] ∧ ∀ b ∈ bs, BesideSections es b) := by
  have sections := (loadConfig_eq_ok content).mp valid
  obtain ⟨verbose, json, -⟩ := logging_ofEntries sections
  rw [load_silent silent chosen content valid]
  simp only [mapError_eq_ok, mapError_eq_error]
  refine ⟨exists_agrees_iff sections _, .of_sections, fun s read => ?_, ?_⟩
  · obtain ⟨path, hverbose, hlogJson, loader, -⟩ := ofEntries_eq_ok.mp read
    exact ⟨path, Except.ok.inj (loader.symm.trans (loader_lifted sections)),
      eq_of_lifted_switch (find?_lifted "verbose" (by decide) es) verbose hverbose,
      eq_of_lifted_switch (find?_lifted "log_json" (by decide) es) json hlogJson⟩
  · rintro _ ⟨bs, read, rfl⟩
    have reported := breaches_lifted sections (some file.text)
    rw [read] at reported
    refine ⟨rfl, bs, rfl, ?_, reported⟩
    rintro rfl
    exact ofEntries_lifted_ne_nil sections _ read

/-- A file with a switch outside of the section on logging is a configuration, but no settings
say the same. -/
theorem settings_of_file_outside :
    let t : FileTree :=
      ⟨[], [], [(["home", "docweave.toml"], "verbose = \"sometimes\"\n[logging]\njson = true\n")]⟩
    let env : Environment := [("HOME", "/home")]
    let c : Config := { logging := { json := true } }
    t.loadConfig (.ofPlace ["home", "docweave.toml"]) = .ok c ∧
      ¬ ∃ s, load t env (some "/home/docweave.toml") none [] = .ok s ∧ s.Agrees c := by
  intro t env c
  have silent : env.Silent := List.forall_mem_singleton.mpr rfl
  have route : Route.ofText "/home/docweave.toml" = .ofPlace ["home", "docweave.toml"] := by
    decide +kernel
  have read : (t.readToml (.ofPlace ["home", "docweave.toml"])).toOption.any (fun es =>
      Config.ofEntries es = .ok c ∧ (Keyed.find? (.str "verbose") (loggingEntries es)).isNone ∧
        switchField false "verbose" es = .error [⟨.truthText, ["verbose"]⟩]) = true := by
    decide +kernel
  cases content : t.readToml (.ofPlace ["home", "docweave.toml"]) with
  | error f =>
      rw [content] at read
      cases read
  | ok es =>
      rw [content] at read
      obtain ⟨sections, absent, unreadable⟩ := of_decide_eq_true read
      have valid := (loadConfig_eq_ok content).mpr sections
      have chosen : chooseFile t env (some "/home/docweave.toml") none =
          .ok (some (.ofPlace ["home", "docweave.toml"])) := chooseFile_named route content
      refine ⟨valid, fun agreeing => ?_⟩
      have alike := (settings_of_file silent chosen content valid).1.mp agreeing
      have off := alike.verbose (Option.isNone_iff_eq_none.mp absent)
      cases unreadable.symm.trans off

end Settings

end Stencil
