import Stencil.Proofs.Settings.Layers

/-!
# The switches of the settings

The settings are six switches: two of their own and four of the loader, which stand in a
section. Each of them is read by itself, from what the table of the settings says of it,
and is the default if the table says nothing. So tables that are laid over one another
give the switches one by one: a switch is that of the first table that says something of
it, whatever the tables say of the other switches, those of the same section included.

## Main definitions

* `LoaderSwitch`, `Leaf` — the switches of the loader, and of the settings.
* `Leaf.among`, `Leaf.of` — a switch in a table, and in settings.
* `Settled` — a switch as it is said, or its default.

## Main results

* `Settings.exists_ofEntries` — settings are read switch by switch.
* `Leaf.among_mergeEntriesOver` — a table over another gives each switch by itself.
-/

namespace Stencil

/-- A switch of the loader. -/
inductive LoaderSwitch where
  | schemaEnabled | ignoreUnknownComments | implicitMapKeyOverrides | strictYaml
  deriving DecidableEq, Repr

namespace LoaderSwitch

/-- The name of a switch in the section on the loader. -/
def name : LoaderSwitch → Text
  | schemaEnabled => "schema_enabled"
  | ignoreUnknownComments => "ignore_unknown_comments"
  | implicitMapKeyOverrides => "implicit_map_key_overrides"
  | strictYaml => "strict_yaml"

/-- What a switch is when nothing is said of it. -/
def default : LoaderSwitch → Bool
  | schemaEnabled => true
  | ignoreUnknownComments | implicitMapKeyOverrides | strictYaml => false

/-- A switch of a loader. -/
def of (c : LoaderConfig) : LoaderSwitch → Bool
  | schemaEnabled => c.schemaEnabled
  | ignoreUnknownComments => c.ignoreUnknownComments
  | implicitMapKeyOverrides => c.implicitMapKeyOverrides
  | strictYaml => c.strictYaml

theorem name_mem (s : LoaderSwitch) : s.name ∈ LoaderConfig.names := by
  cases s <;> decide

/-- Loaders with the same switches are the same. -/
theorem eq_of_same {c d : LoaderConfig} (h : ∀ s : LoaderSwitch, s.of c = s.of d) : c = d := by
  have h₁ := h schemaEnabled
  have h₂ := h ignoreUnknownComments
  have h₃ := h implicitMapKeyOverrides
  have h₄ := h strictYaml
  cases c
  cases d
  simp_all [of]

end LoaderSwitch

/-- A switch of the settings. -/
inductive Leaf where
  | verbose | logJson
  | loader (s : LoaderSwitch)
  deriving DecidableEq, Repr

namespace Leaf

/-- All switches. -/
def all : List Leaf :=
  [verbose, logJson, loader .schemaEnabled, loader .ignoreUnknownComments,
    loader .implicitMapKeyOverrides, loader .strictYaml]

theorem mem_all (leaf : Leaf) : leaf ∈ all := by
  cases leaf with
  | loader s => cases s <;> decide
  | _ => decide

instance {P : Leaf → Prop} [DecidablePred P] : Decidable (∀ leaf, P leaf) :=
  decidable_of_iff (∀ leaf ∈ all, P leaf)
    ⟨fun h leaf => h leaf (mem_all leaf), fun h leaf _ => h leaf⟩

/-- What a switch is when nothing is said of it. -/
def default : Leaf → Bool
  | verbose | logJson => false
  | loader s => s.default

/-- A switch of settings. -/
def of (s : Settings) : Leaf → Bool
  | verbose => s.verbose
  | logJson => s.logJson
  | loader l => l.of s.loader

/-- What a table of the settings says of a switch. -/
def among (es : List (Value × Value)) : Leaf → Option Value
  | verbose => Keyed.find? (.str "verbose") es
  | logJson => Keyed.find? (.str "log_json") es
  | loader s => (Keyed.find? (.str "loader") es).bind (Value.field? s.name)

end Leaf

/-! ## Reading switches -/

/-- A switch is what the value stands for that is said of it, or the default. -/
def Settled (default : Bool) (said : Option Value) (on : Bool) : Prop :=
  match said with
  | none => on = default
  | some v => v.toTruth = .ok on

instance (default : Bool) (said : Option Value) (on : Bool) : Decidable (Settled default said on) :=
  match said with
  | none => inferInstanceAs (Decidable (on = default))
  | some v => inferInstanceAs (Decidable (v.toTruth = .ok on))

/-- A switch is settled in one way. -/
theorem Settled.unique {default on other : Bool} {said : Option Value} (h : Settled default said on)
    (h' : Settled default said other) : on = other := by
  cases said with
  | none => exact Eq.trans h (Eq.symm h')
  | some v => exact Except.ok.inj (Eq.trans (Eq.symm h) h')

theorem exists_settled (default : Bool) {said : Option Value} (h : ∀ v ∈ said, v.IsSwitch) :
    ∃ on, Settled default said on := by
  cases said with
  | none => exact ⟨default, rfl⟩
  | some v => exact h v rfl

section Reading

variable {es : List (Value × Value)}

theorem switchField_eq_ok {default on : Bool} {name : Text} :
    switchField default name es = .ok on ↔ Settled default (Keyed.find? (.str name) es) on := by
  rw [switchField, Checked.field]
  cases Keyed.find? (.str name) es with
  | none => simp [Settled, eq_comm]
  | some v => exact Checked.within_eq_ok

theorem LoaderConfig.ofEntries_eq_ok {c : LoaderConfig} :
    ofEntries es = .ok c ↔
      ∀ s : LoaderSwitch, switchField s.default s.name es = .ok (s.of c) := by
  simp only [ofEntries, Checked.apply_eq_ok, Except.ok.injEq]
  constructor
  · rintro ⟨_, _, ⟨_, _, ⟨_, _, ⟨_, _, rfl, h₁, rfl⟩, h₂, rfl⟩, h₃, rfl⟩, h₄, rfl⟩ s
    cases s with
    | schemaEnabled => exact h₁
    | ignoreUnknownComments => exact h₂
    | implicitMapKeyOverrides => exact h₃
    | strictYaml => exact h₄
  · intro h
    exact ⟨_, _, ⟨_, _, ⟨_, _, ⟨_, _, rfl, h .schemaEnabled, rfl⟩, h .ignoreUnknownComments, rfl⟩,
      h .implicitMapKeyOverrides, rfl⟩, h .strictYaml, rfl⟩

/-- A section on the loader is read switch by switch. -/
theorem exists_loader (table : ∀ v ∈ Keyed.find? (.str "loader") es, ∃ fs, v = .map fs)
    (switches : ∀ s : LoaderSwitch, ∀ v ∈ (Leaf.loader s).among es, v.IsSwitch) :
    ∃ c, Checked.field LoaderConfig.ofValue {} "loader" es = .ok c ∧
      ∀ s : LoaderSwitch, Settled s.default ((Leaf.loader s).among es) (s.of c) := by
  rw [Checked.field]
  unfold Leaf.among at *
  cases hfind : Keyed.find? (.str "loader") es with
  | none =>
      refine ⟨{}, rfl, fun s => ?_⟩
      cases s <;> rfl
  | some v =>
      rw [hfind] at table switches
      obtain ⟨fs, rfl⟩ := table v rfl
      choose on settled using fun s : LoaderSwitch =>
        exists_settled s.default (switches s)
      let c : LoaderConfig := ⟨on .schemaEnabled, on .ignoreUnknownComments,
        on .implicitMapKeyOverrides, on .strictYaml⟩
      have hc : ∀ s : LoaderSwitch, s.of c = on s := fun s => by cases s <;> rfl
      refine ⟨c, Checked.within_eq_ok.mpr ?_, fun s => hc s ▸ settled s⟩
      exact LoaderConfig.ofEntries_eq_ok.mpr fun s => switchField_eq_ok.mpr (hc s ▸ settled s)

/-- **Settings are read switch by switch** from a table in which every name is that of a
setting. -/
theorem Settings.exists_ofEntries (path : Option Text)
    (known : ∀ e ∈ es, ∃ name ∈ names, e.1 = .str name)
    (table : ∀ v ∈ Keyed.find? (.str "loader") es, ∃ fs, v = .map fs)
    (switches : ∀ leaf : Leaf, ∀ v ∈ leaf.among es, v.IsSwitch) :
    ∃ s, ofEntries path es = .ok s ∧
      ∀ leaf : Leaf, Settled leaf.default (leaf.among es) (leaf.of s) := by
  obtain ⟨verbose, hverbose⟩ := exists_settled false (switches .verbose)
  obtain ⟨logJson, hlogJson⟩ := exists_settled false (switches .logJson)
  obtain ⟨c, hc, hloader⟩ := exists_loader table fun s => switches (.loader s)
  refine ⟨⟨path, verbose, logJson, c⟩, ?_, fun leaf => ?_⟩
  · exact ofEntries_eq_ok.mpr
      ⟨rfl, switchField_eq_ok.mpr hverbose, switchField_eq_ok.mpr hlogJson, hc, known⟩
  · cases leaf with
    | verbose => exact hverbose
    | logJson => exact hlogJson
    | loader s => exact hloader s

end Reading

/-! ## Layers -/

/-- A table of the settings that can be laid over others: names are those of settings
and differ, and the section on the loader is a table whose names differ. -/
structure Layer (es : List (Value × Value)) : Prop where
  known : ∀ e ∈ es, ∃ name ∈ Settings.names, e.1 = .str name
  distinct : Keyed.Distinct es
  loader : ∀ v ∈ Keyed.find? (.str "loader") es, v.IsTable
  switches : ∀ leaf : Leaf, ∀ v ∈ leaf.among es, v.IsSwitch

section Layers

variable {upper lower : List (Value × Value)}

/-- **Two layers** say of a switch what the upper one says of it, or else the lower one. -/
theorem Leaf.among_mergeEntriesOver (h : Layer upper) (lower : List (Value × Value)) (leaf : Leaf) :
    leaf.among (Value.mergeEntriesOver upper lower) = (leaf.among upper).or (leaf.among lower) := by
  rw [← Value.merge_of_switch (h.switches leaf)]
  cases leaf with
  | verbose => exact Keyed.find?_mergeEntriesOver h.distinct ..
  | logJson => exact Keyed.find?_mergeEntriesOver h.distinct ..
  | loader s =>
      rw [among, Keyed.find?_mergeEntriesOver h.distinct]
      exact Value.bind_field?_merge h.loader ..

theorem Layer.mergeEntriesOver (hupper : Layer upper) (hlower : Layer lower) :
    Layer (Value.mergeEntriesOver upper lower) where
  known := Keyed.forall_mergeEntriesOver (P := fun k => ∃ name ∈ Settings.names, k = .str name)
    hupper.known hlower.known
  distinct := Keyed.mergeEntriesOver_distinct hlower.distinct
  loader := by
    rw [Keyed.find?_mergeEntriesOver hupper.distinct]
    exact Value.forall_merge_isTable hupper.loader hlower.loader
  switches leaf v hv := by
    rw [Leaf.among_mergeEntriesOver hupper] at hv
    rcases Option.or_eq_some_iff.mp hv with hv | ⟨-, hv⟩
    · exact hupper.switches leaf v hv
    · exact hlower.switches leaf v hv

end Layers

end Stencil
