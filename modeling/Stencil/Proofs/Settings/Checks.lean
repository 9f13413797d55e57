import Stencil.Proofs.Failure
import Stencil.Proofs.Value.Keys
import Stencil.Settings.Sources

/-!
# Checks side by side

A check of several parts succeeds if each of them does, and otherwise reports what
all of them report. So what a configuration or the settings are read from can be said
part by part. Names in tables are texts, and a text is the same key as itself only;
this makes looking up names and writing under them simple.

## Main definitions

* `Checked.breaches` — what a check reports.

## Main results

* `Keyed.find?_insert_str` — what is found under a name after writing under another.
* `Checked.apply_eq_ok`, `Checked.breaches_apply` — two checks side by side.
* `switchField_cases`, `Settings.knownName_cases` — a part is fine, or reported by its name.
* `Config.ofEntries_eq_ok`, `Settings.ofEntries_eq_ok` — what is read from a table.
* `Settings.breaches_ofEntries` — what is reported of a table.
-/

namespace Stencil

/-! ## Names in tables -/

theorem Value.same_str_iff {k : Value} {name : Text} :
    k.same (.str name) = true ↔ k = .str name := by
  cases k with
  | float x => cases hx : x.integer? <;> simp [same, number?, hx]
  | _ => simp [same, number?]

theorem Value.same_str_eq_false {k : Value} {name : Text} (h : k ≠ .str name) :
    k.same (.str name) = false :=
  Bool.eq_false_iff.mpr (mt same_str_iff.mp h)

namespace Keyed

variable {α : Type} {name other : Text} {es : List (Value × α)}

theorem find?_insert_str (name other : Text) (a : α) (es : List (Value × α)) :
    find? (.str name) (insert (.str other) a es) =
      if other = name then some a else find? (.str name) es := by
  induction es with
  | nil => simp [insert, find?, Value.same_str_iff]
  | cons e es ih =>
      rw [insert]
      by_cases hother : e.1 = .str other
      · rw [if_pos (Value.same_str_iff.mpr hother), find?, find?, hother]
        by_cases hname : other = name <;> simp [Value.same_str_iff, hname]
      · rw [if_neg (mt Value.same_str_iff.mp hother), find?, find?, ih]
        by_cases hname : e.1 = .str name
        · have hne : other ≠ name := fun heq => hother (heq ▸ hname)
          rw [if_pos (Value.same_str_iff.mpr hname), if_pos (Value.same_str_iff.mpr hname),
            if_neg hne]
        · rw [if_neg (mt Value.same_str_iff.mp hname), if_neg (mt Value.same_str_iff.mp hname)]

theorem find?_filter_str (hne : name ≠ other) (es : List (Value × α)) :
    find? (.str name) (es.filter fun e => !e.1.same (.str other)) = find? (.str name) es := by
  induction es with
  | nil => rfl
  | cons e es ih =>
      rw [List.filter_cons, find?]
      by_cases hother : e.1 = .str other
      · have hname : e.1 ≠ .str name := fun heq => hne (Value.str.inj (heq.symm.trans hother))
        rw [Value.same_str_iff.mpr hother, Value.same_str_eq_false hname]
        exact ih
      · rw [Value.same_str_eq_false hother, ← ih]
        rfl

theorem mem_of_find?_str {a : α} (h : find? (.str name) es = some a) : (.str name, a) ∈ es := by
  obtain ⟨k, mem, hsame⟩ := find?_eq_some h
  rwa [Value.same_str_iff.mp hsame] at mem

/-- Writing under a name of which something holds does not change whether it holds of
all names. -/
theorem forall_insert_str {P : Value → Prop} (a : α) (holds : P (.str name)) :
    (∀ e ∈ insert (.str name) a es, P e.1) ↔ ∀ e ∈ es, P e.1 := by
  have keys : ∀ {fs : List (Value × α)}, (∀ e ∈ fs, P e.1) ↔ ∀ k ∈ fs.map (·.1), P k :=
    List.forall_mem_map.symm
  rw [keys, keys, insert_keys]
  split
  · rfl
  · rw [List.forall_mem_append, List.forall_mem_singleton]
    exact and_iff_left holds

end Keyed

/-! ## Two checks side by side -/

namespace Checked

variable {α β : Type} {f : Checked (α → β)} {a : Checked α} {b : β}

/-- What a check reports. -/
def breaches (r : Checked α) : List Breach :=
  match r with
  | .ok _ => []
  | .error bs => bs

/-- Two checks succeed if both do. -/
theorem apply_eq_ok : apply f a = .ok b ↔ ∃ g x, f = .ok g ∧ a = .ok x ∧ g x = b := by
  cases f <;> cases a <;> simp [apply]

/-- Two checks report what both report. -/
@[simp] theorem breaches_apply : (apply f a).breaches = f.breaches ++ a.breaches := by
  cases f <;> cases a <;> simp [apply, breaches]

@[simp] theorem breaches_ok (x : α) : breaches (.ok x) = [] := rfl

theorem within_eq_ok {name : Text} {x : α} : within name a = .ok x ↔ a = .ok x := by
  cases a <;> simp [within]

theorem table_eq_ok {v : Value} {es : List (Value × Value)} : table v = .ok es ↔ v = .map es := by
  cases v <;> simp [table, broken]

end Checked

/-! ## What is read from a table -/

/-- A value stands for a truth value, or is itself what is reported. -/
theorem Value.toTruth_cases (v : Value) :
    (∃ on, v.toTruth = .ok on) ∨ ∃ rule, v.toTruth = Checked.broken rule := by
  have word (r : Option Bool) :
      (∃ on, truthOr r = .ok on) ∨ ∃ rule, truthOr r = Checked.broken rule := by
    cases r with
    | none => exact .inr ⟨_, rfl⟩
    | some on => exact .inl ⟨on, rfl⟩
  cases v with
  | bool on => exact .inl ⟨on, rfl⟩
  | str t =>
      rw [toTruth]
      split
      · exact .inr ⟨_, rfl⟩
      · exact word _
  | bytes bs => exact word _
  | int n =>
      rw [toTruth]
      split
      · exact word _
      · exact .inr ⟨_, rfl⟩
  | float x =>
      rw [toTruth]
      split
      · split
        · exact word _
        · exact .inr ⟨_, rfl⟩
      · exact .inr ⟨_, rfl⟩
  | _ => exact .inr ⟨_, rfl⟩

/-- A switch is read, or there is a value under its name, and just that is reported. -/
theorem switchField_cases (default : Bool) (name : Text) (es : List (Value × Value)) :
    (∃ on, switchField default name es = .ok on) ∨
      ∃ v rule, (.str name, v) ∈ es ∧ switchField default name es = .error [⟨rule, [name]⟩] := by
  rw [switchField, Checked.field]
  split
  · exact .inl ⟨default, rfl⟩
  · next v found =>
    rcases v.toTruth_cases with ⟨on, read⟩ | ⟨rule, read⟩
    · exact .inl ⟨on, by rw [read]; rfl⟩
    · exact .inr ⟨v, rule, Keyed.mem_of_find?_str found, by rw [read]; rfl⟩

theorem LoggingConfig.ofValue_eq_ok {v : Value} {l : LoggingConfig} :
    ofValue v = .ok l ↔ ∃ es, v = .map es ∧ switchField false "verbose" es = .ok l.verbose ∧
      switchField false "json" es = .ok l.json := by
  simp only [ofValue, bind_eq_ok, Checked.table_eq_ok, Checked.apply_eq_ok, Except.ok.injEq]
  constructor
  · rintro ⟨es, hes, _, json, ⟨_, verbose, rfl, hverbose, rfl⟩, hjson, rfl⟩
    exact ⟨es, hes, hverbose, hjson⟩
  · rintro ⟨es, hes, hverbose, hjson⟩
    exact ⟨es, hes, _, _, ⟨_, _, rfl, hverbose, rfl⟩, hjson, rfl⟩

section Tables

variable {es : List (Value × Value)}

theorem Config.ofEntries_eq_ok {c : Config} :
    ofEntries es = .ok c ↔ Checked.field LoaderConfig.ofValue {} "loader" es = .ok c.loader ∧
      Checked.field LoggingConfig.ofValue {} "logging" es = .ok c.logging := by
  obtain ⟨loader, logging⟩ := c
  simp [ofEntries, Checked.apply_eq_ok]

namespace Settings

theorem knownName_eq_ok {key : Value} :
    knownName key = .ok () ↔ ∃ name ∈ names, key = .str name := by
  cases key with
  | str name => by_cases h : name ∈ names <;> simp [knownName, h]
  | _ => simp [knownName]

/-- A name is known, or it is what is reported. -/
theorem knownName_cases (key : Value) :
    knownName key = .ok () ∨ knownName key = .error [⟨.known, [key.display]⟩] := by
  cases key with
  | str name =>
      rw [knownName]
      split
      · exact .inl rfl
      · exact .inr rfl
  | _ => exact .inr rfl

theorem knownNames_eq_ok :
    knownNames es = .ok () ↔ ∀ e ∈ es, ∃ name ∈ names, e.1 = .str name := by
  induction es with
  | nil => simp [knownNames]
  | cons e es ih =>
      rw [List.forall_mem_cons, ← ih, ← knownName_eq_ok]
      rw [knownNames, Checked.apply_eq_ok]
      constructor
      · rintro ⟨_, _, hhead, hkeys, -⟩
        obtain ⟨_, _, -, hkey, -⟩ := Checked.apply_eq_ok.mp hhead
        exact ⟨hkey, hkeys⟩
      · rintro ⟨hkey, hkeys⟩
        exact ⟨_, (), Checked.apply_eq_ok.mpr ⟨_, (), rfl, hkey, rfl⟩, hkeys, rfl⟩

/-- Settings are read if each of them is and no name is unknown. -/
theorem ofEntries_eq_ok {path : Option Text} {s : Settings} :
    ofEntries path es = .ok s ↔ s.configPath = path ∧
      switchField false "verbose" es = .ok s.verbose ∧
      switchField false "log_json" es = .ok s.logJson ∧
      Checked.field LoaderConfig.ofValue {} "loader" es = .ok s.loader ∧
      ∀ e ∈ es, ∃ name ∈ names, e.1 = .str name := by
  rw [← knownNames_eq_ok]
  simp only [ofEntries, Checked.apply_eq_ok, Except.ok.injEq]
  constructor
  · rintro ⟨_, _, ⟨_, _, ⟨_, _, ⟨_, _, rfl, hverbose, rfl⟩, hlogJson, rfl⟩, hloader, rfl⟩,
      hknown, rfl⟩
    exact ⟨rfl, hverbose, hlogJson, hloader, hknown⟩
  · rintro ⟨rfl, hverbose, hlogJson, hloader, hknown⟩
    exact ⟨_, (), ⟨_, _, ⟨_, _, ⟨_, _, rfl, hverbose, rfl⟩, hlogJson, rfl⟩, hloader, rfl⟩,
      hknown, rfl⟩

/-- What is reported of a table: what is reported of each setting, and the names that
are unknown. -/
theorem breaches_ofEntries (path : Option Text) (es : List (Value × Value)) :
    (ofEntries path es).breaches = (switchField false "verbose" es).breaches ++
      (switchField false "log_json" es).breaches ++
      (Checked.field LoaderConfig.ofValue {} "loader" es).breaches ++
      es.flatMap fun e => (knownName e.1).breaches := by
  have known : (knownNames es).breaches = es.flatMap fun e => (knownName e.1).breaches := by
    induction es with
    | nil => rfl
    | cons e es ih =>
        rw [knownNames, Checked.breaches_apply, Checked.breaches_apply, Checked.breaches_ok, ih]
        rfl
  simp only [ofEntries, Checked.breaches_apply, Checked.breaches_ok, List.nil_append, known]

end Settings

end Tables

end Stencil
