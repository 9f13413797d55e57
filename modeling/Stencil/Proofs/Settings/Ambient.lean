import Mathlib.Tactic.MkIffOfInductiveProp
import Stencil.Proofs.Settings.FromFile
import Stencil.Proofs.Settings.Leaves
import Stencil.Proofs.Value.Json

/-!
# What the environment says

A variable says something of a switch if its name is that of the switch behind the
common beginning, capitals not counting, and of several such variables the last one
counts. A switch of the loader has two underscores in its name; or it is a member of the
object that the variable of the loader as a whole writes, over which the variable of the
switch goes. What is collected from an environment says just that of each switch.

## Main definitions

* `Environment.said` — the value of a variable, capitals not counting in its name.
* `Value.spells`, `Value.spelled?` — a member of an object, capitals not counting either.
* `Leaf.ambient` — what an environment says of a switch.
* `Environment.Declares` — environments that speak of switches, and of none in vain.

## Main results

* `Agreement.find?_nested` — what single variables say of a section.
* `Value.spelled?_mergeEntriesOver` — variables over the members of an object.
* `Agreement.source_declared` — what is collected from an environment.
-/

namespace Stencil

/-! ## Variables -/

namespace Environment

/-- The value of the variable with a name that is written in small letters. Capitals do
not count, and the last such variable does. -/
def said (env : Environment) (name : Text) : Option Text :=
  ((env.filter fun v => v.1.toLower = name).getLast?).map (·.2)

/-- The name of the variable of a setting. -/
def settingName (name : Text) : Text := beginning ++ name

/-- What the names of the variables of switches of the loader begin with. -/
def switchBeginning : Text := settingName "loader" ++ "__"

/-- The name of the variable of a switch of the loader. -/
def switchName (name : Text) : Text := switchBeginning ++ name

end Environment

namespace Value

/-- Whether a key is a name, capitals not counting. -/
def spells (name : Text) : Value → Bool
  | .str key => key.toLower = name
  | _ => false

/-- The last member of an object with some name, capitals not counting. -/
def spelled? (name : Text) (es : List (Value × Value)) : Option Value :=
  ((es.filter fun e => spells name e.1).getLast?).map (·.2)

end Value

namespace Environment

/-- The members of the object that the variable of the loader writes. -/
def members (env : Environment) : List (Value × Value) :=
  (((env.said (settingName "loader")).bind Value.ofJson?).map Value.members).getD []

end Environment

/-- What an environment says of a switch. -/
def Leaf.ambient (env : Environment) : Leaf → Option Value
  | verbose => (env.said (Environment.settingName "verbose")).map .str
  | logJson => (env.said (Environment.settingName "log_json")).map .str
  | loader s =>
    ((env.said (Environment.switchName s.name)).map Value.str).or
      (Value.spelled? s.name env.members)

/-- An environment whose variables for the loader are for its switches, or write an object
that does not spell a switch in two ways. What it says of switches stands for truth
values. -/
@[mk_iff]
structure Environment.Declares (env : Environment) : Prop where
  switch : ∀ v ∈ env, Text.startsWith switchBeginning v.1.toLower = true →
    ∃ name ∈ LoaderConfig.names, v.1.toLower = switchName name
  object : ∀ text ∈ env.said (settingName "loader"), ∃ es, Value.ofJson? text = some (.map es)
  spelling : ∀ name ∈ LoaderConfig.names, ∀ a ∈ env.members, ∀ b ∈ env.members,
    Value.spells name a.1 = true → Value.spells name b.1 = true → a.1.same b.1 = true
  valid : ∀ leaf : Leaf, ∀ v ∈ leaf.ambient env, v.IsSwitch

instance (v : Option Value) : Decidable (∃ es, v = some (.map es)) :=
  decidable_of_iff (∃ o ∈ v, ∃ es, o = .map es) (by cases v <;> simp)

instance (env : Environment) : Decidable env.Declares := decidable_of_iff _ (env.declares_iff).symm

/-! ## Members of an object -/

namespace Value

variable {name key : Text} {change : Value → Value} {v : Value} {ps es : List (Value × Value)}

theorem spelled?_cons (name : Text) (e : Value × Value) (es : List (Value × Value)) :
    spelled? name (e :: es) =
      (spelled? name es).or (if spells name e.1 then some e.2 else none) := by
  rw [spelled?, spelled?, List.filter_cons]
  cases h : spells name e.1 with
  | false => simp
  | true =>
      rw [if_pos rfl, List.getLast?_cons]
      cases (es.filter fun e => spells name e.1).getLast? <;> rfl

/-- Changing what stands under one name leaves what there is of another. -/
theorem filter_spells_update (h : key.toLower ≠ name) (change : Value → Value) (v : Value)
    (es : List (Value × Value)) :
    ((Keyed.update (.str key) change v es).filter fun e => spells name e.1) =
      es.filter fun e => spells name e.1 := by
  have hkey : spells name (.str key) = false := decide_eq_false h
  induction es with
  | nil => simp [Keyed.update, hkey]
  | cons e es ih =>
      rw [Keyed.update]
      split
      · next hsame =>
        rw [List.filter_cons, List.filter_cons, same_str_iff.mp hsame, hkey]
        rfl
      · rw [List.filter_cons, List.filter_cons, ih]

/-- Writing under a name in small letters is the last to be said of it if it was there at
most once. -/
theorem spelled?_update (small : name.toLower = name) (hchange : ∀ old, change old = v)
    (once : (es.filter fun e => spells name e.1).length ≤ 1) :
    spelled? name (Keyed.update (.str name) change v es) = some v := by
  have hname : spells name (.str name) = true := decide_eq_true small
  induction es with
  | nil => rw [Keyed.update, spelled?_cons, if_pos hname]; rfl
  | cons e es ih =>
      rw [List.filter_cons] at once
      rw [Keyed.update]
      split
      · next hsame =>
        rw [same_str_iff.mp hsame, if_pos hname, List.length_cons] at once
        have hnone : (es.filter fun e => spells name e.1) = [] :=
          List.length_eq_zero_iff.mp (by omega)
        rw [spelled?_cons, same_str_iff.mp hsame, if_pos hname, hchange, spelled?, hnone]
        rfl
      · have hrest : (es.filter fun e => spells name e.1).length ≤ 1 := by
          split at once
          · rw [List.length_cons] at once
            omega
          · exact once
        rw [spelled?_cons, ih hrest, Option.some_or]

/-- **Variables over the members of an object**: what a variable says of a name comes
before what the object says of it. -/
theorem spelled?_mergeEntriesOver (small : name.toLower = name)
    (keys : ∀ p ∈ ps, ∃ key : Text, key.toLower = key ∧ p.1 = .str key)
    (texts : ∀ p ∈ ps, ∀ old, p.2.mergeOver old = p.2) (distinct : Keyed.Distinct ps)
    (once : Keyed.find? (.str name) ps ≠ none →
      (es.filter fun e => spells name e.1).length ≤ 1) :
    spelled? name (mergeEntriesOver ps es) =
      (Keyed.find? (.str name) ps).or (spelled? name es) := by
  induction ps generalizing es with
  | nil => rw [mergeEntriesOver, Keyed.find?, Option.none_or]
  | cons p ps ih =>
      obtain ⟨k, v⟩ := p
      obtain ⟨⟨key, hkey, hk⟩, hkeys⟩ := List.forall_mem_cons.mp keys
      obtain rfl : k = .str key := hk
      obtain ⟨text, htexts⟩ := List.forall_mem_cons.mp texts
      obtain ⟨hhead, hdistinct⟩ := List.pairwise_cons.mp distinct
      rw [Keyed.find?_cons_str] at once
      rw [mergeEntriesOver, Keyed.find?_cons_str]
      by_cases h : key = name
      · -- the name does not come up again, so the object may have it twice from here on
        subst h
        have absent : Keyed.find? (.str key) ps = none := Keyed.find?_str_eq_none hhead
        rw [if_pos rfl] at once
        rw [if_pos rfl, ih hkeys htexts hdistinct fun there => absurd absent there, absent,
          Option.none_or, spelled?_update small text (once (Option.some_ne_none v)), Option.some_or]
      · have other : key.toLower ≠ name := hkey.symm ▸ h
        have hfilter := filter_spells_update other (fun old => v.mergeOver old) v es
        rw [if_neg h] at once
        rw [if_neg h, ih hkeys htexts hdistinct (hfilter ▸ once), spelled?, hfilter]
        rfl

/-- Among names in small letters that differ a name is found however it is looked for. -/
theorem spelled?_eq_find? (small : name.toLower = name)
    (keys : ∀ e ∈ es, ∃ key : Text, key.toLower = key ∧ e.1 = .str key)
    (distinct : Keyed.Distinct es) : spelled? name es = Keyed.find? (.str name) es := by
  induction es with
  | nil => rfl
  | cons e es ih =>
      obtain ⟨k, v⟩ := e
      obtain ⟨⟨key, hkey, hk⟩, hkeys⟩ := List.forall_mem_cons.mp keys
      obtain rfl : k = .str key := hk
      obtain ⟨hhead, hdistinct⟩ := List.pairwise_cons.mp distinct
      rw [spelled?_cons, ih hkeys hdistinct, Keyed.find?_cons_str, spells, hkey]
      by_cases h : key = name
      · subst h
        rw [Keyed.find?_str_eq_none hhead, if_pos rfl]
        simp
      · simp [h]

end Value

namespace Environment

variable {env : Environment} {name : Text}

theorem members_distinct (env : Environment) : Keyed.Distinct env.members := by
  unfold members
  cases (env.said (settingName "loader")) with
  | none => exact List.Pairwise.nil
  | some text =>
      rw [Option.bind_some]
      cases read : Value.ofJson? text with
      | none => exact List.Pairwise.nil
      | some v =>
          cases v with
          | map es => exact Value.ofJson?_distinct read
          | _ => exact List.Pairwise.nil

/-- A switch comes up once in the object at most. -/
theorem Declares.once (declares : env.Declares) (hname : name ∈ LoaderConfig.names) :
    (env.members.filter fun e => Value.spells name e.1).length ≤ 1 := by
  have alone (es : List (Value × Value)) (distinct : Keyed.Distinct es)
      (same : ∀ a ∈ es, ∀ b ∈ es, a.1.same b.1 = true) : es.length ≤ 1 := by
    rcases es with _ | ⟨a, _ | ⟨b, rest⟩⟩
    · exact Nat.zero_le 1
    · exact Nat.le_refl 1
    · have apart := (List.pairwise_cons.mp distinct).1 b (List.mem_cons_self ..)
      rw [same a (by simp) b (by simp)] at apart
      cases apart
  refine alone _ (List.Pairwise.filter _ env.members_distinct) fun a ha b hb => ?_
  obtain ⟨ha, spellsA⟩ := List.mem_filter.mp ha
  obtain ⟨hb, spellsB⟩ := List.mem_filter.mp hb
  exact declares.spelling name hname a ha b hb spellsA spellsB

end Environment

namespace Agreement

variable {env : Environment} {name : Text}

theorem bindings_eq (env : Environment) :
    bindings {} env = Named.ofList (env.map fun v => (v.1.toLower, Value.str v.2)) := by
  simp [bindings, nameOf]

/-- What is found under a name among the variables is the value of the last one. -/
theorem lookup_bindings (env : Environment) (name : Text) :
    (bindings {} env).lookup name = (env.said name).map .str := by
  rw [bindings_eq, Named.lookup_ofList, ← List.map_reverse, Environment.said,
    List.getLast?_eq_head?_reverse, ← List.filter_reverse]
  induction env.reverse with
  | nil => rfl
  | cons v vs ih =>
      rw [List.map_cons, Named.lookup_cons_ite, ih, List.filter_cons]
      by_cases h : v.1.toLower = name
      · simp [h]
      · simp [h, Ne.symm h]

/-- The variables that count are variables of the environment. -/
theorem forall_bindings {P : Text × Value → Prop} (h : ∀ v ∈ env, P (v.1.toLower, .str v.2)) :
    ∀ v ∈ bindings {} env, P v := by
  rw [bindings_eq]
  exact Named.forall_mem_ofList (List.forall_mem_map.mpr h)

theorem bindings_text (env : Environment) : ∀ v ∈ bindings {} env, ∃ t, v.2 = .str t :=
  forall_bindings (P := fun v => ∃ t, v.2 = .str t) fun v _ => ⟨v.2, rfl⟩

/-! ## What single variables say -/

/-- The variables of the switches of the loader, by the names of the switches. -/
def switchEntries (bs : List (Text × Value)) : List (Value × Value) :=
  (bs.filter fun v => Text.startsWith Environment.switchBeginning v.1).map fun v =>
    (.str (v.1.drop Environment.switchBeginning.length), v.2)

theorem startsWith_switchName (name : Text) :
    Text.startsWith Environment.switchBeginning (Environment.switchName name) = true :=
  List.isPrefixOf_iff_prefix.mpr (List.prefix_append ..)

section Switches

variable {bs : List (Text × Value)} {v : Text × Value}

theorem switchEntries_cons_switch (hname : v.1 = Environment.switchName name) :
    switchEntries (v :: bs) = (.str name, v.2) :: switchEntries bs := by
  have within := startsWith_switchName name
  rw [switchEntries, List.filter_cons, hname, if_pos within, List.map_cons, hname,
    Environment.switchName, List.drop_left]
  rfl

theorem switchEntries_cons_other
    (h : ¬ Text.startsWith Environment.switchBeginning v.1 = true) :
    switchEntries (v :: bs) = switchEntries bs := by
  rw [switchEntries, List.filter_cons, if_neg h]
  rfl

variable (switch : ∀ v ∈ bs, Text.startsWith Environment.switchBeginning v.1 = true →
  ∃ name ∈ LoaderConfig.names, v.1 = Environment.switchName name)

include switch

/-- **Single variables** for switches of the loader are written one by one. -/
theorem nested_eq (text : ∀ v ∈ bs, ∃ t, v.2 = .str t) :
    nested {} "loader" bs = Keyed.ofList (switchEntries bs) := by
  have alone : ∀ name ∈ LoaderConfig.names, Text.splitAround "__" none 0 name = [name] := by decide
  suffices hsuff : ∀ es : List (Value × Value),
      bs.foldl (fun es v =>
        if Text.startsWith Environment.switchBeginning v.1 then
          putUnder v.2 (Text.splitAround "__" none 0
            (v.1.drop Environment.switchBeginning.length)) es
        else es) es =
      (switchEntries bs).foldl (fun es p => Keyed.insert p.1 p.2 es) es from hsuff []
  induction bs with
  | nil => exact fun es => rfl
  | cons v bs ih =>
      intro es
      obtain ⟨⟨t, ht⟩, htext⟩ := List.forall_mem_cons.mp text
      obtain ⟨hv, hswitch⟩ := List.forall_mem_cons.mp switch
      rw [List.foldl_cons, ih hswitch htext]
      by_cases within : Text.startsWith Environment.switchBeginning v.1 = true
      · obtain ⟨name, mem, hname⟩ := hv within
        rw [if_pos within, switchEntries_cons_switch hname, List.foldl_cons, hname,
          Environment.switchName, List.drop_left, alone name mem, ht]
        rfl
      · rw [if_neg within, switchEntries_cons_other within]

theorem find?_switchEntries (name : Text) :
    Keyed.find? (.str name) (switchEntries bs) = bs.lookup (Environment.switchName name) := by
  induction bs with
  | nil => rfl
  | cons v bs ih =>
      obtain ⟨hv, hswitch⟩ := List.forall_mem_cons.mp switch
      rw [Named.lookup_cons_ite]
      by_cases within : Text.startsWith Environment.switchBeginning v.1 = true
      · obtain ⟨key, -, hkey⟩ := hv within
        have hiff : Environment.switchName name = v.1 ↔ key = name := by
          rw [hkey, Environment.switchName, Environment.switchName, List.append_cancel_left_eq,
            eq_comm]
        rw [switchEntries_cons_switch hkey, Keyed.find?_cons_str, ih hswitch]
        exact if_congr hiff.symm rfl rfl
      · rw [switchEntries_cons_other within, ih hswitch, if_neg]
        exact fun heq => within (heq ▸ startsWith_switchName name)

end Switches

section Declared

variable (declares : env.Declares)

include declares

theorem bindings_switch :
    ∀ v ∈ bindings {} env, Text.startsWith Environment.switchBeginning v.1 = true →
      ∃ name ∈ LoaderConfig.names, v.1 = Environment.switchName name :=
  forall_bindings (P := fun v => Text.startsWith Environment.switchBeginning v.1 = true →
    ∃ name ∈ LoaderConfig.names, v.1 = Environment.switchName name) declares.switch

theorem nested_bindings :
    nested {} "loader" (bindings {} env) = Keyed.ofList (switchEntries (bindings {} env)) :=
  nested_eq (bindings_switch declares) (bindings_text env)

/-- What single variables of an environment say of a switch is the value of the last one. -/
theorem find?_nested (name : Text) :
    Keyed.find? (.str name) (nested {} "loader" (bindings {} env)) =
      (env.said (Environment.switchName name)).map .str := by
  have reversed :
      switchEntries (bindings {} env).reverse = (switchEntries (bindings {} env)).reverse := by
    rw [switchEntries, List.filter_reverse, List.map_reverse]
    rfl
  have perm : (bindings {} env).reverse.Perm (bindings {} env) := List.reverse_perm _
  have nodup : ((bindings {} env).map (·.1)).Nodup := Named.ofList_nodup _
  rw [nested_bindings declares, Keyed.find?_ofList_str, ← reversed,
    find?_switchEntries fun v hv => bindings_switch declares v (List.mem_reverse.mp hv),
    ← Named.lookup_of_perm perm.symm nodup, lookup_bindings]

/-- The names that single variables speak of are those of switches, and what they say
are texts. -/
theorem forall_nested :
    ∀ e ∈ nested {} "loader" (bindings {} env),
      (∃ name ∈ LoaderConfig.names, e.1 = .str name) ∧ ∃ t, e.2 = .str t := by
  rw [nested_bindings declares]
  refine Keyed.forall_mem_ofList (P := fun k => ∃ name ∈ LoaderConfig.names, k = .str name)
    (Q := fun v : Value => ∃ t, v = .str t) (List.forall_mem_map.mpr fun v hv => ?_)
  obtain ⟨mem, within⟩ := List.mem_filter.mp hv
  obtain ⟨name, hname, heq⟩ := bindings_switch declares v mem within
  refine ⟨⟨name, hname, ?_⟩, bindings_text env v mem⟩
  rw [heq, Environment.switchName, List.drop_left]

end Declared

/-! ## What is said of the loader -/

theorem names_small : ∀ name ∈ LoaderConfig.names, name.toLower = name := by decide

theorem nameAmong_eq_iff (hname : name ∈ LoaderConfig.names) (key : Text) :
    nameAmong LoaderConfig.names key = name ↔ key.toLower = name := by
  have found : ∀ name ∈ LoaderConfig.names,
      (LoaderConfig.names.find? fun n => n.toLower = name) = some name := by decide
  constructor
  · intro heq
    rw [nameAmong] at heq
    cases hfind : LoaderConfig.names.find? fun n => n.toLower = key.toLower with
    | none =>
        rw [hfind, Option.getD_none] at heq
        rw [heq, names_small name hname]
    | some n =>
        rw [hfind, Option.getD_some] at heq
        have hn : n.toLower = key.toLower := by simpa using List.find?_some hfind
        rw [← hn, heq, names_small name hname]
  · intro heq
    rw [nameAmong, heq, found name hname, Option.getD_some]

/-- Among the entries under the names that they stand for a switch is found that was
spelled in any way, and the last one. -/
theorem find?_withNamesAmong (hname : name ∈ LoaderConfig.names) (es : List (Value × Value)) :
    Keyed.find? (.str name) (withNamesAmong LoaderConfig.names es) = Value.spelled? name es := by
  rw [withNamesAmong, Keyed.find?_ofList_str, ← List.map_reverse, Value.spelled?,
    List.getLast?_eq_head?_reverse, ← List.filter_reverse]
  induction es.reverse with
  | nil => rfl
  | cons e es ih =>
      obtain ⟨k, v⟩ := e
      rw [List.map_cons, List.filter_cons]
      cases k with
      | str key =>
          rw [Keyed.find?_cons_str, ih, Value.spells]
          by_cases h : key.toLower = name
          · rw [if_pos ((nameAmong_eq_iff hname key).mpr h)]
            simp [h]
          · rw [if_neg (mt (nameAmong_eq_iff hname key).mp h)]
            simp [h]
      | _ => simpa [Keyed.find?, Value.same_str_iff, Value.spells] using ih

section Declared

variable (declares : env.Declares)

include declares

/-- **What is said of the loader** by an environment: of each switch what its variable
says, or else the object that the variable of the loader writes. -/
theorem exists_loader_source :
    ∃ o, loader {} (bindings {} env) = .ok o ∧ (∀ v ∈ o, v.IsTable) ∧
      ∀ s : LoaderSwitch, o.bind (Value.field? s.name) = (Leaf.loader s).ambient env := by
  have distinct : Keyed.Distinct (nested {} "loader" (bindings {} env)) :=
    nested_bindings declares ▸ Keyed.ofList_distinct _
  have keys : ∀ e ∈ nested {} "loader" (bindings {} env),
      ∃ key : Text, key.toLower = key ∧ e.1 = .str key := fun e he => by
    obtain ⟨⟨name, hname, heq⟩, -⟩ := forall_nested declares e he
    exact ⟨name, names_small name hname, heq⟩
  have texts : ∀ e ∈ nested {} "loader" (bindings {} env), ∀ old, e.2.mergeOver old = e.2 :=
    fun e he old => by
      obtain ⟨-, t, ht⟩ := forall_nested declares e he
      rw [ht]
      exact Value.mergeOver_of_ne_map (by simp) old
  have table (es : List (Value × Value)) :
      (Value.map (withNamesAmong LoaderConfig.names es)).IsTable :=
    ⟨_, rfl, Keyed.ofList_distinct _⟩
  have whole : (bindings {} env).lookup (nameOf {} (beginning {} ++ "loader")) =
      (env.said (Environment.settingName "loader")).map .str := lookup_bindings env _
  unfold loader
  rw [whole]
  cases hsaid : env.said (Environment.settingName "loader") with
  | none =>
      have hmembers : env.members = [] := by rw [Environment.members, hsaid]; rfl
      refine ⟨_, rfl, ?_, fun s => ?_⟩
      · split
        · simp
        · simpa using table _
      · rw [Leaf.ambient, hmembers, ← find?_nested declares]
        split
        · next empty => rw [List.isEmpty_iff.mp empty]; rfl
        · have found := find?_withNamesAmong s.name_mem (nested {} "loader" (bindings {} env))
          rw [Value.spelled?_eq_find? (names_small _ s.name_mem) keys distinct] at found
          exact found.trans (Option.or_none ..).symm
  | some text =>
      obtain ⟨es, hes⟩ := declares.object text hsaid
      have hmembers : env.members = es := by
        rw [Environment.members, hsaid, Option.bind_some, hes]
        rfl
      simp only [Option.map_some, hes]
      refine ⟨_, rfl, ?_, fun s => ?_⟩
      · simpa using table _
      · have once := declares.once s.name_mem
        rw [hmembers] at once
        rw [Leaf.ambient, hmembers, ← find?_nested declares,
          ← Value.spelled?_mergeEntriesOver (names_small _ s.name_mem) keys texts distinct
            fun _ => once]
        exact find?_withNamesAmong s.name_mem _

end Declared

/-! ## What is said of all settings -/

/-- An entry of a table, if there is a value for it. -/
def entry (name : Text) (v : Option Value) : List (Value × Value) :=
  v.toList.map fun v => (.str name, v)

theorem find?_entry_append (name other : Text) (v : Option Value) (es : List (Value × Value)) :
    Keyed.find? (.str name) (entry other v ++ es) =
      if other = name then v.or (Keyed.find? (.str name) es) else Keyed.find? (.str name) es := by
  cases v with
  | none => simp [entry]
  | some v => exact Keyed.find?_cons_str name other v es

theorem entry_keys (name : Text) (v : Option Value) :
    ((entry name v).map (·.1)).Sublist [.str name] := by
  cases v with
  | none => exact List.nil_sublist _
  | some v => exact List.Sublist.refl _

/-- A table of fields in their order, without those that have no value. -/
def entries (fields : List (Text × Option Value)) : List (Value × Value) :=
  fields.flatMap fun f => entry f.1 f.2

section Entries

variable {name : Text} {v : Option Value} {fields : List (Text × Option Value)}

theorem entries_keys (fields : List (Text × Option Value)) :
    ((entries fields).map (·.1)).Sublist (fields.map fun f => Value.str f.1) := by
  induction fields with
  | nil => exact List.Sublist.refl _
  | cons f fields ih =>
      rw [entries, List.flatMap_cons, List.map_append]
      exact (entry_keys f.1 f.2).append ih

theorem entries_distinct (distinct : (fields.map (·.1)).Nodup) :
    Keyed.Distinct (entries fields) := by
  rw [Keyed.distinct_iff_keys]
  refine List.Pairwise.sublist (entries_keys fields) (List.pairwise_map.mpr ?_)
  refine (List.pairwise_map.mp distinct).imp fun hne => ?_
  exact Value.same_str_eq_false (mt Value.str.inj hne)

theorem find?_entries_eq_none (other : name ∉ fields.map (·.1)) :
    Keyed.find? (.str name) (entries fields) = none := by
  induction fields with
  | nil => rfl
  | cons f fields ih =>
      rw [List.map_cons, List.mem_cons, not_or] at other
      rw [entries, List.flatMap_cons, find?_entry_append, if_neg (Ne.symm other.1)]
      exact ih other.2

/-- The entry of a field in a table is that of its value. -/
theorem find?_entries (distinct : (fields.map (·.1)).Nodup) (mem : (name, v) ∈ fields) :
    Keyed.find? (.str name) (entries fields) = v := by
  induction fields with
  | nil => cases mem
  | cons f fields ih =>
      obtain ⟨new, distinct⟩ := List.nodup_cons.mp distinct
      rw [entries, List.flatMap_cons, find?_entry_append]
      rcases List.mem_cons.mp mem with rfl | mem
      · have behind : Keyed.find? (.str name) (entries fields) = none := find?_entries_eq_none new
        rw [if_pos rfl, ← entries, behind, Option.or_none]
      · have hne : f.1 ≠ name := by
          rintro rfl
          exact new (List.mem_map.mpr ⟨_, mem, rfl⟩)
        rw [if_neg hne]
        exact ih distinct mem

end Entries

/-- A table of the settings in their order. -/
def settingEntries (path verbose logJson loader : Option Value) : List (Value × Value) :=
  entries [("config_path", path), ("verbose", verbose), ("log_json", logJson), ("loader", loader)]

theorem settingEntries_known (path verbose logJson loader : Option Value) :
    ∀ e ∈ settingEntries path verbose logJson loader, ∃ name ∈ Settings.names, e.1 = .str name := by
  intro e he
  have mem := (entries_keys _).subset (List.mem_map_of_mem he)
  obtain ⟨name, hname, heq⟩ := List.mem_map.mp (show e.1 ∈ Settings.names.map Value.str from mem)
  exact ⟨name, hname, heq.symm⟩

theorem option_eq (h : nameOf {} (beginning {} ++ name) = Environment.settingName name) :
    option {} name (bindings {} env) =
      entry name ((env.said (Environment.settingName name)).map .str) := by
  rw [option, h, lookup_bindings]
  cases env.said (Environment.settingName name) <;> rfl

/-- Everything that an environment says. -/
theorem source_eq {o : Option Value} (h : loader {} (bindings {} env) = .ok o) :
    source {} env = .ok (settingEntries
      ((env.said (Environment.settingName "config_path")).map .str)
      (Leaf.verbose.ambient env) (Leaf.logJson.ambient env) o) := by
  rw [source, h, option_eq rfl, option_eq rfl, option_eq rfl, settingEntries, entries]
  simp only [List.flatMap_cons, List.flatMap_nil, List.append_nil, ← List.append_assoc]
  rfl

/-- **What is collected from an environment** says of each switch what the environment
says of it. -/
theorem source_declared (declares : env.Declares) :
    ∃ es, source {} env = .ok es ∧ Layer es ∧
      ∀ leaf : Leaf, leaf.among es = leaf.ambient env := by
  obtain ⟨o, ho, table, switches⟩ := exists_loader_source declares
  let es := settingEntries ((env.said (Environment.settingName "config_path")).map .str)
    (Leaf.verbose.ambient env) (Leaf.logJson.ambient env) o
  have names : Settings.names.Nodup := by decide
  have loader_es : Keyed.find? (.str "loader") es = o := find?_entries names (by simp)
  have among (leaf : Leaf) : leaf.among es = leaf.ambient env := by
    cases leaf with
    | verbose => exact find?_entries names (by simp)
    | logJson => exact find?_entries names (by simp)
    | loader s => rw [Leaf.among, loader_es, switches s]
  refine ⟨es, source_eq ho, ?_, among⟩
  exact {
    known := settingEntries_known _ _ _ _
    distinct := entries_distinct names
    loader := loader_es.symm ▸ table
    switches := fun leaf => among leaf ▸ declares.valid leaf }

end Agreement

end Stencil
