import Mathlib.Data.List.Induction
import Stencil.Proofs.Settings.Checks

/-!
# Tables laid over one another

A table that is laid over another one leaves, under a name, what the two say there, laid
over one another in turn. So a name that only one of them has keeps what it has, and a
switch, which is no table, is taken from the upper table if it is there. For this the
names of the upper table have to differ; those of the lower one need not. Since layers
of tables with names that differ are such a table again, any number of them can be laid
over one another.

## Main definitions

* `Value.members`, `Value.field?` — the entries of a table, and what it says under a name.
* `Value.IsTable`, `Value.IsSwitch` — tables whose names differ, and values that stand
  for a truth value.

## Main results

* `Keyed.find?_mergeEntriesOver` — what two layers say under a name.
* `Value.bind_field?_merge` — what two layers say of a switch of a section.
* `Value.merge_of_switch` — a switch is the one of the upper layer if that has it.
-/

namespace Stencil

theorem Value.str_same_iff {k : Value} {name : Text} :
    (Value.str name).same k = true ↔ k = .str name := by
  cases k with
  | float x => cases hx : x.integer? <;> simp [same, number?, hx]
  | str t => simp [same, eq_comm]
  | _ => simp [same, number?]

namespace Keyed

section Update

variable {α : Type} {name : Text} {k : Value} {change : α → α} {a : α} {es : List (Value × α)}

theorem find?_cons_str (name key : Text) (a : α) (es : List (Value × α)) :
    find? (.str name) ((.str key, a) :: es) =
      if key = name then some a else find? (.str name) es := by
  rw [find?]
  by_cases h : key = name <;> simp [Value.same_str_iff, h]

/-- A name is not found among keys that differ from it. -/
theorem find?_str_eq_none (h : ∀ e ∈ es, (Value.str name).same e.1 = false) :
    find? (.str name) es = none := by
  refine Option.eq_none_iff_forall_ne_some.mpr fun a found => ?_
  have hne := h _ (mem_of_find?_str found)
  rw [Value.same_self] at hne
  cases hne

/-- Changing what stands under a key leaves the same keys as writing under it. -/
theorem update_keys (k : Value) (change : α → α) (a : α) (es : List (Value × α)) :
    (update k change a es).map (·.1) = (insert k a es).map (·.1) := by
  induction es with
  | nil => rfl
  | cons e es ih =>
      rw [update, insert]
      split
      · rfl
      · rw [List.map_cons, ih, List.map_cons]

theorem update_distinct (h : Distinct es) : Distinct (update k change a es) := by
  rw [distinct_iff_keys, update_keys, ← distinct_iff_keys]
  exact insert_distinct h

theorem find?_update_str (name : Text) (k : Value) (change : α → α) (a : α)
    (es : List (Value × α)) :
    find? (.str name) (update k change a es) =
      if k.same (.str name) then some (((find? (.str name) es).map change).getD a)
      else find? (.str name) es := by
  induction es with
  | nil => rfl
  | cons e es ih =>
      obtain ⟨key, b⟩ := e
      rw [update, find?]
      by_cases hname : key = .str name
      · -- the entry that is found is changed if the name is meant
        subst hname
        rw [if_pos (Value.same_self _)]
        by_cases hk : k = .str name
        · rw [if_pos (Value.str_same_iff.mpr hk), if_pos (Value.same_str_iff.mpr hk), find?,
            if_pos (Value.same_self _)]
          rfl
        · rw [if_neg (mt Value.str_same_iff.mp hk), if_neg (mt Value.same_str_iff.mp hk), find?,
            if_pos (Value.same_self _)]
      · have other : ¬ key.same (.str name) = true := mt Value.same_str_iff.mp hname
        rw [if_neg other]
        split
        · next hkey =>
          have hk : ¬ k.same (.str name) = true := by
            intro hk
            rw [Value.same_str_iff.mp hk] at hkey
            exact other hkey
          rw [find?, if_neg other, if_neg hk]
        · rw [find?, if_neg other, ih]

/-- Writing under a key changes what stands under it to what is written. -/
theorem insert_eq_update (k : Value) (a : α) (es : List (Value × α)) :
    insert k a es = update k (fun _ => a) a es := by
  induction es with
  | nil => rfl
  | cons e es ih => rw [insert, update, ih]

/-- What is found under a name after writing pairs one by one is the last of them. -/
theorem find?_ofList_str (name : Text) (pairs : List (Value × α)) :
    find? (.str name) (ofList pairs) = find? (.str name) pairs.reverse := by
  induction pairs using List.reverseRecOn with
  | nil => rfl
  | append_singleton pairs p ih =>
      have last : ofList (pairs ++ [p]) = insert p.1 p.2 (ofList pairs) := List.foldl_concat ..
      rw [last, insert_eq_update, find?_update_str, ih, List.reverse_concat, find?]
      cases find? (.str name) pairs.reverse <;> rfl

end Update

variable {name : Text} {ps es : List (Value × Value)}

/-- **Two layers** say under a name what each of them says there, laid over one another. -/
theorem find?_mergeEntriesOver (distinct : Distinct ps) (name : Text)
    (es : List (Value × Value)) :
    find? (.str name) (Value.mergeEntriesOver ps es) =
      Option.merge Value.mergeOver (find? (.str name) ps) (find? (.str name) es) := by
  induction ps generalizing es with
  | nil => rw [Value.mergeEntriesOver, find?, Option.merge_none_left]
  | cons p ps ih =>
      obtain ⟨k, v⟩ := p
      obtain ⟨hhead, htail⟩ := List.pairwise_cons.mp distinct
      rw [Value.mergeEntriesOver, ih htail, find?_update_str, find?]
      by_cases hk : k = .str name
      · have hrest : find? (.str name) ps = none := by
          refine Option.eq_none_iff_forall_ne_some.mpr fun w found => ?_
          have hne := hhead _ (mem_of_find?_str found)
          rw [hk, Value.same_self] at hne
          cases hne
        rw [hrest, if_pos (Value.same_str_iff.mpr hk), if_pos (Value.same_str_iff.mpr hk)]
        cases find? (.str name) es <;> rfl
      · rw [if_neg (mt Value.same_str_iff.mp hk), if_neg (mt Value.same_str_iff.mp hk)]

theorem mergeEntriesOver_distinct (h : Distinct es) : Distinct (Value.mergeEntriesOver ps es) := by
  induction ps generalizing es with
  | nil =>
      rw [Value.mergeEntriesOver]
      exact h
  | cons p ps ih =>
      rw [Value.mergeEntriesOver]
      exact ih (update_distinct h)

/-- What holds of the names of two layers holds of all names that are left. -/
theorem forall_mergeEntriesOver {P : Value → Prop} (hps : ∀ p ∈ ps, P p.1)
    (hes : ∀ e ∈ es, P e.1) : ∀ e ∈ Value.mergeEntriesOver ps es, P e.1 := by
  induction ps generalizing es with
  | nil =>
      rw [Value.mergeEntriesOver]
      exact hes
  | cons p ps ih =>
      obtain ⟨hp, hps⟩ := List.forall_mem_cons.mp hps
      rw [Value.mergeEntriesOver]
      refine ih hps (List.forall_mem_map.mp ?_)
      rw [update_keys, insert_keys]
      split
      · exact List.forall_mem_map.mpr hes
      · rw [List.forall_mem_append, List.forall_mem_singleton]
        exact ⟨List.forall_mem_map.mpr hes, hp⟩

end Keyed

namespace Value

/-! ## Sections and switches -/

/-- The entries of a table; no other value has any. -/
def members : Value → List (Value × Value)
  | .map es => es
  | _ => []

/-- What a table says under a name. -/
def field? (name : Text) (v : Value) : Option Value := Keyed.find? (.str name) v.members

/-- A table whose names differ. -/
def IsTable (v : Value) : Prop := ∃ es, v = .map es ∧ Keyed.Distinct es

/-- A value that stands for a truth value. -/
def IsSwitch (v : Value) : Prop := ∃ on, v.toTruth = .ok on

section Decidable

variable (v : Value)

theorem kind_eq_map : v.kind = .map ↔ ∃ es, v = .map es := by
  cases v <;> simp [kind]

theorem members_eq_nil (h : ¬ ∃ es, v = .map es) : v.members = [] := by
  cases v with
  | map es => exact absurd ⟨es, rfl⟩ h
  | _ => rfl

instance : Decidable (∃ es, v = .map es) := decidable_of_iff _ (kind_eq_map v)

instance (name : Text) : Decidable (v = .str name) := decidable_of_iff _ same_str_iff

instance : Decidable v.IsTable :=
  decidable_of_iff ((∃ es, v = .map es) ∧ v.members.Pairwise fun a b => a.1.same b.1 = false) (by
    constructor
    · rintro ⟨⟨es, rfl⟩, distinct⟩
      exact ⟨es, rfl, distinct⟩
    · rintro ⟨es, rfl, distinct⟩
      exact ⟨⟨es, rfl⟩, distinct⟩)

instance : Decidable v.IsSwitch :=
  decidable_of_iff (v.toTruth.toOption.isSome = true) (by
    rw [IsSwitch]
    cases v.toTruth <;> simp [Except.toOption])

end Decidable

variable {patch base : Value} {upper lower : Option Value} {name : Text}

/-- Whatever is no table lies over everything. -/
theorem mergeOver_of_ne_map (h : ∀ ps, patch ≠ .map ps) (base : Value) :
    patch.mergeOver base = patch := by
  rw [Value.mergeOver]
  exact h

theorem IsSwitch.mergeOver (h : patch.IsSwitch) (base : Value) : patch.mergeOver base = patch := by
  refine mergeOver_of_ne_map ?_ base
  rintro ps rfl
  obtain ⟨on, read⟩ := h
  cases read

theorem IsTable.mergeOver (hpatch : patch.IsTable) (hbase : base.IsTable) :
    (patch.mergeOver base).IsTable := by
  obtain ⟨ps, rfl, -⟩ := hpatch
  obtain ⟨es, rfl, hes⟩ := hbase
  rw [Value.mergeOver]
  exact ⟨_, rfl, Keyed.mergeEntriesOver_distinct hes⟩

theorem members_mergeOver (ps : List (Value × Value)) (base : Value) :
    ((map ps).mergeOver base).members = mergeEntriesOver ps base.members ∨
      ((map ps).mergeOver base).members = ps ∧ base.members = [] := by
  by_cases h : ∃ es, base = .map es
  · obtain ⟨es, rfl⟩ := h
    rw [mergeOver]
    exact .inl rfl
  · rw [mergeOver]
    · exact .inr ⟨rfl, members_eq_nil base h⟩
    · exact fun es heq => h ⟨es, heq⟩

theorem field?_mergeOver (hpatch : patch.IsTable) (name : Text) (base : Value) :
    (patch.mergeOver base).field? name =
      Option.merge Value.mergeOver (patch.field? name) (base.field? name) := by
  obtain ⟨ps, rfl, hps⟩ := hpatch
  rw [field?, field?, field?]
  rcases members_mergeOver ps base with merged | ⟨kept, nothing⟩
  · rw [merged, Keyed.find?_mergeEntriesOver hps]
    rfl
  · rw [kept, nothing]
    exact (Option.merge_none_right ..).symm

/-- **Layers of a section** say of a switch what each of them says of it, laid over one
another. -/
theorem bind_field?_merge (hupper : ∀ v ∈ upper, v.IsTable) (name : Text)
    (lower : Option Value) :
    (Option.merge mergeOver upper lower).bind (field? name) =
      Option.merge mergeOver (upper.bind (field? name)) (lower.bind (field? name)) := by
  cases upper with
  | none => rw [Option.merge_none_left, Option.bind_none, Option.merge_none_left]
  | some u =>
      cases lower with
      | none => rw [Option.merge_none_right, Option.bind_none, Option.merge_none_right]
      | some l => exact field?_mergeOver (hupper u rfl) name l

theorem forall_merge_isTable (hupper : ∀ v ∈ upper, v.IsTable) (hlower : ∀ v ∈ lower, v.IsTable) :
    ∀ v ∈ Option.merge mergeOver upper lower, v.IsTable := by
  cases upper with
  | none =>
      rw [Option.merge_none_left]
      exact hlower
  | some u =>
      cases lower with
      | none =>
          rw [Option.merge_none_right]
          exact hupper
      | some l =>
          rintro _ ⟨⟩
          exact (hupper u rfl).mergeOver (hlower l rfl)

/-- **A switch** is the one of the upper layer if that has it. -/
theorem merge_of_switch (h : ∀ v ∈ upper, v.IsSwitch) (lower : Option Value) :
    Option.merge mergeOver upper lower = upper.or lower := by
  cases upper with
  | none => rw [Option.merge_none_left, Option.none_or]
  | some u =>
      cases lower with
      | none => rfl
      | some l => exact congrArg some ((h u rfl).mergeOver l)

end Value

end Stencil
