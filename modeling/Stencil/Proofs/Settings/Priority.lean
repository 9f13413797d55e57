import Stencil.Proofs.Settings.Ambient

/-!
# Where settings come from

Settings are loaded from what the caller gives, the environment, a configuration file
and defaults. Each of the six switches is settled by itself: it is what the first of
these sources says of it, and if none says anything, its default. The switches of the
loader stand in one section in every source, but a source that has the section for one
switch does not hide what those behind it say of the others. In the file, two switches
stand in the section on logging, one of them under another name.

## Main definitions

* `Leaf.given`, `Leaf.written` — what a caller and a file say of a switch.
* `Settings.GivenDeclares`, `Settings.FileDeclares` — callers and files that speak of
  switches and nothing else.

## Main results

* `Settings.givenEntries_declared`, `Settings.lifted_declared` — what is collected from a
  caller and from a file.
* `Settings.load_resolved` — where each switch comes from.
-/

namespace Stencil

/-- What a caller says of a switch. -/
def Leaf.given (given : List (Text × Value)) : Leaf → Option Value
  | verbose => given.lookup ("verbose" : Text)
  | logJson => given.lookup ("log_json" : Text)
  | loader s => (given.lookup ("loader" : Text)).bind (Value.field? s.name)

/-- What a file says of a switch. -/
def Leaf.written (es : List (Value × Value)) : Leaf → Option Value
  | verbose => (Keyed.find? (.str "logging") es).bind (Value.field? "verbose")
  | logJson => (Keyed.find? (.str "logging") es).bind (Value.field? "json")
  | loader s => (Keyed.find? (.str "loader") es).bind (Value.field? s.name)

/-- What the configuration file that is used writes; nothing without a file. -/
def FileTree.written (t : FileTree) (file : Option Route) :
    Except LoadFailure (List (Value × Value)) :=
  match file with
  | none => .ok []
  | some r => t.readToml r

namespace Settings

/-! ## What a caller says -/

/-- The names under which a caller speaks of switches. -/
def givenNames : List Text := ["verbose", "log_json", "loader"]

/-- A caller who speaks of switches and nothing else, with a table for the loader. What it
says of them stands for truth values. -/
@[mk_iff]
structure GivenDeclares (given : List (Text × Value)) : Prop where
  names : ∀ g ∈ given, g.1 ∈ givenNames
  loader : ∀ v ∈ given.lookup ("loader" : Text), v.IsTable
  valid : ∀ leaf : Leaf, ∀ v ∈ leaf.given given, v.IsSwitch

instance (given : List (Text × Value)) : Decidable (GivenDeclares given) :=
  decidable_of_iff ((given.all fun g => givenNames.contains g.1) = true ∧
      (∀ v ∈ given.lookup ("loader" : Text), v.IsTable) ∧
      ∀ leaf : Leaf, ∀ v ∈ leaf.given given, v.IsSwitch) (by
    rw [givenDeclares_iff]
    simp)

section Given

variable {given : List (Text × Value)}

theorem find?_map_str (name : Text) (given : List (Text × Value)) :
    Keyed.find? (.str name) (given.map fun g => (Value.str g.1, g.2)) = given.lookup name := by
  induction given with
  | nil => rfl
  | cons g given ih =>
      rw [List.map_cons, Keyed.find?_cons_str, ih, Named.lookup_cons_ite]
      exact if_congr eq_comm rfl rfl

/-- Nothing is found under a name that is not one of a caller's. -/
theorem lookup_given (names : ∀ g ∈ given, g.1 ∈ givenNames) {name : Text}
    (other : name ∉ givenNames) : given.lookup name = none := by
  refine List.lookup_eq_none_iff.mpr fun g hg => bne_iff_ne.mpr ?_
  exact fun heq => other (heq ▸ names g hg)

/-- Such a caller agrees on nothing unusual. -/
theorem ofCaller_given (names : ∀ g ∈ given, g.1 ∈ givenNames) : Agreement.ofCaller given = {} := by
  simp only [Agreement.ofCaller]
  rw [lookup_given names (by decide), lookup_given names (by decide),
    lookup_given names (by decide), lookup_given names (by decide),
    lookup_given names (by decide), lookup_given names (by decide)]
  rfl

theorem ownArguments_given (names : ∀ g ∈ given, g.1 ∈ givenNames) :
    (ownArguments.find? fun name => given.any (·.1 = name)) = none := by
  have own : ∀ name ∈ ownArguments, name ∉ givenNames := by decide
  refine List.find?_eq_none.mpr fun name hname there => own name hname ?_
  obtain ⟨g, hg, heq⟩ := List.any_eq_true.mp there
  exact of_decide_eq_true heq ▸ names g hg

theorem filter_directives (names : ∀ g ∈ given, g.1 ∈ givenNames) :
    (given.filter fun g => !Agreement.directives.contains g.1) = given := by
  have other : ∀ name ∈ givenNames, (!Agreement.directives.contains name) = true := by decide
  exact List.filter_eq_self.mpr fun g hg => other _ (names g hg)

theorem givenEntries_eq (names : ∀ g ∈ given, g.1 ∈ givenNames) :
    givenEntries given = Keyed.ofList (given.reverse.map fun g => (.str g.1, g.2)) := by
  have own : ∀ name ∈ givenNames,
      Agreement.nameAmong Settings.names name = name ∧ name ≠ "config_path" := by decide
  have named : given.map (fun g => (Agreement.nameAmong Settings.names g.1, g.2)) = given := by
    refine (List.map_congr_left fun g hg => ?_).trans (List.map_id given)
    rw [(own g.1 (names g hg)).1]
    rfl
  have kept : (given.filter fun g => g.1 ≠ ("config_path" : Text)) = given :=
    List.filter_eq_self.mpr fun g hg => decide_eq_true (own g.1 (names g hg)).2
  rw [givenEntries, named, kept]

/-- **What is collected from a caller** says of each switch what the caller says of it. -/
theorem givenEntries_declared (declares : GivenDeclares given) :
    Layer (givenEntries given) ∧
      ∀ leaf : Leaf, leaf.among (givenEntries given) = leaf.given given := by
  have found (name : Text) : Keyed.find? (.str name) (givenEntries given) = given.lookup name := by
    rw [givenEntries_eq declares.names, Keyed.find?_ofList_str, ← List.map_reverse,
      List.reverse_reverse, find?_map_str]
  have among (leaf : Leaf) : leaf.among (givenEntries given) = leaf.given given := by
    cases leaf with
    | verbose => exact found _
    | logJson => exact found _
    | loader s => rw [Leaf.among, found, Leaf.given]
  have known : ∀ name ∈ givenNames, name ∈ Settings.names := by decide
  refine ⟨?_, among⟩
  exact {
    known := by
      rw [givenEntries_eq declares.names]
      intro e he
      refine (Keyed.forall_mem_ofList (P := fun k => ∃ name ∈ Settings.names, k = .str name)
        (Q := fun _ => True) (List.forall_mem_map.mpr fun g hg => ?_) e he).1
      exact ⟨⟨g.1, known _ (declares.names g (List.mem_reverse.mp hg)), rfl⟩, trivial⟩
    distinct := givenEntries_eq declares.names ▸ Keyed.ofList_distinct _
    loader := (found "loader").symm ▸ declares.loader
    switches := fun leaf => among leaf ▸ declares.valid leaf }

end Given

/-! ## What a file says -/

/-- A file with nothing but the two sections, which are tables. What it says of switches
stands for truth values. -/
@[mk_iff]
structure FileDeclares (es : List (Value × Value)) : Prop where
  sections : ∀ e ∈ es, e.1 = .str "loader" ∨ e.1 = .str "logging"
  tables : ∀ e ∈ es, ∃ fs, e.2 = .map fs
  valid : ∀ leaf : Leaf, ∀ v ∈ leaf.written es, v.IsSwitch

instance (es : List (Value × Value)) : Decidable (FileDeclares es) :=
  decidable_of_iff _ (fileDeclares_iff es).symm

section Written

variable {es : List (Value × Value)}

theorem find?_loggingEntries (name : Text) (es : List (Value × Value)) :
    Keyed.find? (.str name) (loggingEntries es) =
      (Keyed.find? (.str "logging") es).bind (Value.field? name) := by
  rw [loggingEntries]
  cases Keyed.find? (.str "logging") es with
  | none => rfl
  | some v => cases v <;> rfl

/-- **What is collected from a file** says of each switch what the file says of it. -/
theorem lifted_declared (declares : FileDeclares es) (leaf : Leaf) :
    leaf.among (lifted es) = leaf.written es := by
  cases leaf with
  | verbose =>
      have outside : Keyed.find? (.str "verbose") es = none :=
        find?_of_sections declares.sections (by decide) (by decide)
      rw [Leaf.among, find?_lifted "verbose" (by decide), outside, Option.or_none]
      exact find?_loggingEntries "verbose" es
  | logJson =>
      have outside : Keyed.find? (.str "log_json") es = none :=
        find?_of_sections declares.sections (by decide) (by decide)
      rw [Leaf.among, find?_lifted "log_json" (by decide), outside, Option.or_none]
      exact find?_loggingEntries "json" es
  | loader s =>
      rw [Leaf.among, find?_lifted "loader" (by decide), Leaf.written]
      rfl

theorem FileDeclares.table (declares : FileDeclares es) (name : Text) :
    ∀ v ∈ Keyed.find? (.str name) es, ∃ fs, v = .map fs :=
  fun _ hv => declares.tables _ (Keyed.mem_of_find?_str hv)

/-- Such a file is a configuration. -/
theorem exists_config (declares : FileDeclares es) : ∃ c, Config.ofEntries es = .ok c := by
  obtain ⟨loader, hloader, -⟩ :=
    exists_loader (declares.table "loader") fun s => declares.valid (.loader s)
  have hlogging : ∃ l, Checked.field LoggingConfig.ofValue {} "logging" es = .ok l := by
    obtain ⟨verbose, hverbose⟩ := exists_settled false (declares.valid .verbose)
    obtain ⟨json, hjson⟩ := exists_settled false (declares.valid .logJson)
    have table := declares.table "logging"
    simp only [Leaf.written] at hverbose hjson
    rw [Checked.field]
    cases hfind : Keyed.find? (.str "logging") es with
    | none => exact ⟨{}, rfl⟩
    | some v =>
        obtain ⟨fs, rfl⟩ := table v hfind
        rw [hfind] at hverbose hjson
        refine ⟨⟨verbose, json⟩, Checked.within_eq_ok.mpr (LoggingConfig.ofValue_eq_ok.mpr ?_)⟩
        exact ⟨fs, rfl, switchField_eq_ok.mpr hverbose, switchField_eq_ok.mpr hjson⟩
  obtain ⟨logging, hlogging⟩ := hlogging
  exact ⟨⟨loader, logging⟩, Config.ofEntries_eq_ok.mpr ⟨hloader, hlogging⟩⟩

end Written

/-! ## All sources -/

section Loading

variable {t : FileTree} {env : Environment} {named start : Option Text}
  {given : List (Text × Value)} {file : Option Route} {es : List (Value × Value)}

section Layers

variable {upper middle lower : List (Value × Value)} (hupper : Layer upper)
  (hmiddle : Layer middle)

include hupper hmiddle

/-- Three layers say of a switch what the first one says of it that says anything. -/
theorem among_layered (lower : List (Value × Value)) (leaf : Leaf) :
    leaf.among (layered upper middle lower) =
      (leaf.among upper).or ((leaf.among middle).or (leaf.among lower)) := by
  rw [layered, Leaf.among_mergeEntriesOver (hupper.mergeEntriesOver hmiddle),
    Leaf.among_mergeEntriesOver hupper, Option.or_assoc]

/-- The section on the loader is a table in all layers together if it is one in each. -/
theorem loader_layered (table : ∀ v ∈ Keyed.find? (.str "loader") lower, ∃ fs, v = .map fs) :
    ∀ v ∈ Keyed.find? (.str "loader") (layered upper middle lower), ∃ fs, v = .map fs := by
  have h := hupper.mergeEntriesOver hmiddle
  rw [layered, Keyed.find?_mergeEntriesOver h.distinct]
  cases hfind : Keyed.find? (.str "loader") (Value.mergeEntriesOver upper middle) with
  | none =>
      rw [Option.merge_none_left]
      exact table
  | some v =>
      obtain ⟨ps, rfl, -⟩ := h.loader v hfind
      cases Keyed.find? (.str "loader") lower with
      | none => exact fun _ hv => ⟨ps, (Option.some.inj hv).symm⟩
      | some base =>
          rintro _ ⟨⟩
          cases base <;> simp [Value.mergeOver]

/-- **Settings of three layers** are read switch by switch. -/
theorem exists_ofEntries_layered (path : Option Text)
    (known : ∀ e ∈ lower, ∃ name ∈ names, e.1 = .str name)
    (table : ∀ v ∈ Keyed.find? (.str "loader") lower, ∃ fs, v = .map fs)
    (switches : ∀ leaf : Leaf, ∀ v ∈ leaf.among lower, v.IsSwitch) :
    ∃ s, ofEntries path (layered upper middle lower) = .ok s ∧
      ∀ leaf : Leaf, Settled leaf.default
        ((leaf.among upper).or ((leaf.among middle).or (leaf.among lower))) (leaf.of s) := by
  have hknown : ∀ e ∈ layered upper middle lower, ∃ name ∈ names, e.1 = .str name :=
    Keyed.forall_mergeEntriesOver (P := fun k => ∃ name ∈ names, k = .str name)
      (hupper.mergeEntriesOver hmiddle).known known
  have hswitches (leaf : Leaf) :
      ∀ v ∈ leaf.among (layered upper middle lower), v.IsSwitch := by
    intro v hv
    rw [among_layered hupper hmiddle] at hv
    rcases Option.or_eq_some_iff.mp hv with hv | ⟨-, hv⟩
    · exact hupper.switches leaf v hv
    · rcases Option.or_eq_some_iff.mp hv with hv | ⟨-, hv⟩
      · exact hmiddle.switches leaf v hv
      · exact switches leaf v hv
  obtain ⟨s, read, settled⟩ :=
    exists_ofEntries path hknown (loader_layered hupper hmiddle table) hswitches
  exact ⟨s, read, fun leaf => among_layered hupper hmiddle lower leaf ▸ settled leaf⟩

end Layers

/-- What is loaded is what the three sources say together. -/
theorem load_eq_ofEntries {ambient : List (Value × Value)}
    (names : ∀ g ∈ given, g.1 ∈ givenNames) (source : ({} : Agreement).source env = .ok ambient)
    (chosen : chooseFile t env named start = .ok file) (content : t.written file = .ok es)
    (declares : FileDeclares es) :
    load t env named start given =
      (ofEntries (file.map Route.text) (layered (givenEntries given) ambient (lifted es))).mapError
        .rejected := by
  cases file with
  | none =>
      obtain rfl : es = [] := (Except.ok.inj content).symm
      have nothing : lifted [] = [] := rfl
      simp only [load, ownArguments_given names, chosen, ofCaller_given names, source,
        filter_directives names, nothing, bind, Except.bind, pure, Except.pure]
      cases ofEntries (Option.map Route.text none) (layered (givenEntries given) ambient []) <;> rfl
  | some r =>
      obtain ⟨c, hc⟩ := exists_config declares
      have read : t.readToml r = .ok es := content
      have valid := (loadConfig_eq_ok read).mpr hc
      have collected := (logging_ofEntries hc).2.2
      simp only [load, ownArguments_given names, chosen, ofCaller_given names, source,
        filter_directives names, valid, read, collected, bind, Except.bind]
      cases ofEntries (Option.map Route.text (some r))
        (layered (givenEntries given) ambient (lifted es)) <;> rfl

/-- **Where each switch comes from.** Let the caller, the environment and the file that is
used speak of switches, each of them of any it likes, and let there be a file or none. Then
settings are loaded, and each switch is what the first of the three says of it that says
anything of it, or else its default. Nothing that is said of another switch matters for it,
of one in the same section neither. -/
theorem load_resolved (hgiven : GivenDeclares given) (henv : env.Declares)
    (chosen : chooseFile t env named start = .ok file) (content : t.written file = .ok es)
    (hfile : FileDeclares es) :
    ∃ s, load t env named start given = .ok s ∧
      ∀ leaf : Leaf, Settled leaf.default
        ((leaf.given given).or ((leaf.ambient env).or (leaf.written es))) (leaf.of s) := by
  obtain ⟨upper, ofGiven⟩ := givenEntries_declared hgiven
  obtain ⟨ambient, source, middle, ofAmbient⟩ := Agreement.source_declared henv
  have ofFile := lifted_declared hfile
  have known : ∀ e ∈ lifted es, ∃ name ∈ Settings.names, e.1 = .str name :=
    (forall_lifted (P := fun k => ∃ name ∈ Settings.names, k = .str name)
      ⟨_, by decide, rfl⟩ ⟨_, by decide, rfl⟩).mpr (ReadAlike.of_sections hfile.sections).known
  have table : ∀ v ∈ Keyed.find? (.str "loader") (lifted es), ∃ fs, v = .map fs :=
    find?_lifted "loader" (by decide) es ▸ hfile.table "loader"
  have switches : ∀ leaf : Leaf, ∀ v ∈ leaf.among (lifted es), v.IsSwitch :=
    fun leaf => ofFile leaf ▸ hfile.valid leaf
  obtain ⟨s, read, settled⟩ :=
    exists_ofEntries_layered upper middle (file.map Route.text) known table switches
  refine ⟨s, ?_, fun leaf => ?_⟩
  · rw [load_eq_ofEntries hgiven.names source chosen content hfile, read]
    rfl
  · rw [← ofGiven, ← ofAmbient, ← ofFile]
    exact settled leaf

/-- A switch from each source: the caller, a variable, the object of a variable and a file,
and one that is left at its default. The file says something of the switch that the
caller gives, too. -/
theorem load_resolved_mixed :
    let t : FileTree := ⟨["home"], [], [(["home", "docweave.toml"],
      "[loader]\nignore_unknown_comments = true\nstrict_yaml = false\n[logging]\njson = true\n")]⟩
    let env : Environment := [("DOCWEAVE_LOADER__SCHEMA_ENABLED", "off"),
      ("DOCWEAVE_LOADER", "\x7b\"implicit_map_key_overrides\": true\x7d")]
    let given : List (Text × Value) := [("loader", .map [(.str "strict_yaml", .bool true)])]
    ∃ s, load t env none none given = .ok s ∧ s.verbose = false ∧ s.logJson = true ∧
      s.loader = ⟨false, true, true, true⟩ := by
  intro t env given
  let file : Route := .ofPlace ["home", "docweave.toml"]
  let mixed : Settings := ⟨none, false, true, ⟨false, true, true, true⟩⟩
  have hgiven : GivenDeclares given := by decide +kernel
  have henv : env.Declares := by decide +kernel
  have chosen : chooseFile t env none none = .ok (some file) := by rfl
  have read : (t.written (some file)).toOption.any (fun es => FileDeclares es ∧
      ∀ leaf : Leaf, Settled leaf.default
        ((leaf.given given).or ((leaf.ambient env).or (leaf.written es))) (leaf.of mixed)) =
          true := by
    decide +kernel
  cases content : t.written (some file) with
  | error f =>
      rw [content] at read
      cases read
  | ok es =>
      rw [content] at read
      obtain ⟨hfile, expected⟩ := of_decide_eq_true read
      obtain ⟨s, loaded, settled⟩ := load_resolved hgiven henv chosen content hfile
      have same (leaf : Leaf) : leaf.of s = leaf.of mixed := (settled leaf).unique (expected leaf)
      exact ⟨s, loaded, same .verbose, same .logJson,
        LoaderSwitch.eq_of_same fun l => same (.loader l)⟩

end Loading

end Settings

end Stencil
