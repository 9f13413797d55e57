import Stencil.Proofs.Document.Plain
import Stencil.Schema.Basic

/-!
# Defaults that a schema accepts

A schema has defaults, and checking them is a recursion of its own: over the
types that were built, not over the document they were built from. What the
two have in common is said of types alone. A type is fitting if its default
is of its kind, where it has one, and if the keys of a map differ; every type
that a document declares is fitting, whatever annotations stand where; and a
fitting type accepts its default.

The default is wrapped into a document before it is checked, and unwrapped by
the check. It comes back because it is well-keyed.

## Main definitions

* `SchemaType.Fitting` — types whose defaults are of their kind.

## Main results

* `SchemaType.violations_default` — a fitting type accepts its default.
* `Node.inferType_fitting` — the types that documents declare are fitting.
* `defaults_accepted` — a schema accepts its defaults.
-/

namespace Stencil

namespace SchemaType

/-! ## Fitting types -/

mutual
/-- Whether the default of a type is of the sort that the type asks for, and
can be wrapped and unwrapped. What a type wraps, and the items of an array,
have no part in the default. -/
def Fitting : SchemaType → Prop
  | .any _ d => d.WellKeyed
  | .nullable _ _ => True
  | .scalar _ kind d => d.kind.isScalar = true ∧ kind = d.kind.name
  | .map _ items => Keyed.Distinct items ∧ ItemsFitting items
  | .array _ _ => True
  | .unruled _ => False

/-- Whether all keys can be keys and all types under them are fitting. -/
def ItemsFitting : List (Value × SchemaType) → Prop
  | [] => True
  | (k, t) :: items => k.isHashable = true ∧ t.Fitting ∧ ItemsFitting items
end

theorem itemsFitting_iff {items : List (Value × SchemaType)} :
    ItemsFitting items ↔ ∀ i ∈ items, i.1.isHashable = true ∧ i.2.Fitting := by
  induction items with
  | nil => simp [ItemsFitting]
  | cons i items ih =>
      obtain ⟨k, t⟩ := i
      simp [ItemsFitting, ih, and_assoc]

theorem itemDefaults_eq (items : List (Value × SchemaType)) :
    itemDefaults items = items.map fun i => (i.1, i.2.default) := by
  induction items with
  | nil => rw [itemDefaults, List.map_nil]
  | cons i items ih =>
      obtain ⟨k, t⟩ := i
      rw [itemDefaults, ih, List.map_cons]

/-- The defaults of items whose keys differ are entries whose keys differ. -/
theorem itemDefaults_distinct {items : List (Value × SchemaType)} (h : Keyed.Distinct items) :
    Keyed.Distinct (itemDefaults items) := by
  rw [itemDefaults_eq, Keyed.distinct_iff_keys, List.map_map]
  exact Keyed.distinct_iff_keys.mp h

mutual
/-- A fitting type has a default. -/
theorem hasDefault_of_fitting : (t : SchemaType) → t.Fitting → t.hasDefault = true
  | .any _ _, _ => by simp [hasDefault]
  | .nullable _ _, _ => by simp [hasDefault]
  | .scalar _ _ _, _ => by simp [hasDefault]
  | .map _ items, h => by
      rw [hasDefault]
      exact itemsHaveDefaults_of_fitting items h.2
  | .array _ _, _ => by simp [hasDefault]
  | .unruled _, h => h.elim

theorem itemsHaveDefaults_of_fitting :
    (items : List (Value × SchemaType)) → ItemsFitting items → itemsHaveDefaults items = true
  | [], _ => by rw [itemsHaveDefaults]
  | (_, t) :: items, h => by
      rw [itemsHaveDefaults, hasDefault_of_fitting t h.2.1,
        itemsHaveDefaults_of_fitting items h.2.2]
      rfl
end

mutual
/-- The default of a fitting type can be wrapped and unwrapped. -/
theorem default_wellKeyed : (t : SchemaType) → t.Fitting → t.default.WellKeyed
  | .any _ _, h => by
      rw [default]
      exact h
  | .nullable _ _, _ => by
      rw [default]
      trivial
  | .scalar _ _ d, h => by
      rw [default]
      obtain ⟨hscalar, -⟩ := h
      cases d <;> trivial
  | .map _ items, h => by
      rw [default]
      exact ⟨itemDefaults_distinct h.1, itemDefaults_wellKeyed items h.2⟩
  | .array _ _, _ => by
      rw [default]
      trivial
  | .unruled _, h => h.elim

theorem itemDefaults_wellKeyed : (items : List (Value × SchemaType)) → ItemsFitting items →
    Value.EntriesWellKeyed (itemDefaults items)
  | [], _ => by
      rw [itemDefaults]
      trivial
  | (_, t) :: items, h => by
      rw [itemDefaults]
      exact ⟨h.1, default_wellKeyed t h.2.1, itemDefaults_wellKeyed items h.2.2⟩
end

/-! ## A fitting type accepts its default -/

/-- The violations under a key are those of the type that is found there. -/
theorem violationsUnder_eq (path : Text) (key v : Value) (items : List (Value × SchemaType)) :
    violationsUnder path key v items =
      (Keyed.find? key items).map fun t => t.violations path v := by
  induction items with
  | nil => rw [violationsUnder, Keyed.find?]; rfl
  | cons i items ih =>
      obtain ⟨k, t⟩ := i
      rw [violationsUnder, Keyed.find?]
      split
      · rfl
      · exact ih

mutual
/-- **A fitting type accepts its default**, at whatever path it is checked. -/
theorem violations_default : (t : SchemaType) → t.Fitting → ∀ path : Text,
    t.violations path t.default = []
  | .any _ _, _, _ => by rw [violations]
  | .nullable _ _, _, _ => by rw [default, violations]
  | .scalar _ kind d, h, _ => by
      obtain ⟨-, hkind⟩ := h
      have haccepts : acceptsKind kind d.kind = true := by simp [acceptsKind, hkind]
      rw [default, violations, if_pos haccepts]
  | .map p items, h, path => by
      rw [default, violations, List.flatMap_eq_nil_iff]
      intro e he
      rw [itemDefaults_eq, List.mem_map] at he
      obtain ⟨⟨k, t⟩, hmem, rfl⟩ := he
      have hfound : Keyed.find? k items = some t := Keyed.find?_of_mem h.1 hmem
      have hitem : t.violations (keyPath path k) t.default = [] :=
        itemViolations_default items h.2 (k, t) hmem (keyPath path k)
      simp only [violationsUnder_eq, hfound, Option.map_some, Option.getD_some, hitem]
  | .array _ _, _, _ => by
      rw [default, violations]
      rfl
  | .unruled _, h, _ => h.elim

theorem itemViolations_default : (items : List (Value × SchemaType)) → ItemsFitting items →
    ∀ i ∈ items, ∀ path : Text, i.2.violations path i.2.default = []
  | [], _, _, h, _ => by cases h
  | (_, t) :: items, h, i, hi, path => by
      rcases List.mem_cons.mp hi with rfl | hi
      · exact violations_default t h.2.1 path
      · exact itemViolations_default items h.2.2 i hi path
end

end SchemaType

/-! ## The types that documents declare -/

theorem Value.declaredType_fitting {v : Value} (h : v.WellKeyed) (p : Position) :
    (v.declaredType p).Fitting := by
  unfold Value.declaredType
  split
  · next hscalar => exact ⟨hscalar, rfl⟩
  · exact h

/-- An override asks for a type that accepts anything, or for one that
accepts null. -/
theorem Override.newType_cases {o : Override} {t : SchemaType} (h : o.newType = some t) :
    (∃ p, t = .any p .null) ∨ ∃ p wrapped, t = .nullable p wrapped := by
  cases o with
  | type isAny p =>
      cases isAny <;> cases h
      exact .inl ⟨p, rfl⟩
  | nullable wrapped p =>
      cases h
      exact .inr ⟨p, wrapped, rfl⟩

/-- A type that annotations may decide is the one that the value has, or one
that accepts null, or one that accepts anything and defaults to the value. -/
theorem overriddenType_cases {m : Mark} {valueType : Option (Except Failure SchemaType)}
    {declared : Except Failure Value} {own : Except Failure SchemaType} {t : SchemaType}
    (h : overriddenType m valueType declared own = .ok t) :
    own = .ok t ∨ (∃ p wrapped, t = .nullable p wrapped) ∨
      ∃ p v, declared = .ok v ∧ t = .any p v := by
  unfold overriddenType at h
  obtain ⟨resolved, hresolved, h⟩ := bind_eq_ok.mp h
  cases resolved with
  | none => exact .inl h
  | some o =>
      unfold Override.resolve at hresolved
      obtain ⟨overrides, -, hselected⟩ := bind_eq_ok.mp hresolved
      obtain ⟨selected, -, hnew⟩ := Option.bind_eq_some_iff.mp (Except.ok.inj hselected)
      rcases Override.newType_cases hnew with ⟨p, rfl⟩ | ⟨p, wrapped, rfl⟩
      · obtain ⟨v, hv, h⟩ := bind_eq_ok.mp h
        cases h
        exact .inr (.inr ⟨p, v, hv, rfl⟩)
      · cases h
        exact .inr (.inl ⟨p, wrapped, rfl⟩)

/-- Annotations keep a type fitting, if the declared value is well-keyed. -/
theorem overriddenType_fitting {m : Mark} {valueType : Option (Except Failure SchemaType)}
    {declared : Except Failure Value} {own : Except Failure SchemaType} {t : SchemaType}
    (h : overriddenType m valueType declared own = .ok t)
    (hdeclared : ∀ v, declared = .ok v → v.WellKeyed) (hown : ∀ u, own = .ok u → u.Fitting) :
    t.Fitting := by
  rcases overriddenType_cases h with h | ⟨p, wrapped, rfl⟩ | ⟨p, v, hv, rfl⟩
  · exact hown t h
  · trivial
  · exact hdeclared v hv

/-- The keys of the declared items of a map can be keys, and what holds of the
types of all entries holds of the types of the items. -/
theorem forall_mem_declaredItems {P : SchemaType → Prop}
    {types : List (Value × Except Failure SchemaType)} {items : List (Value × SchemaType)}
    (h : declaredItems types = .ok items) (htypes : ∀ p ∈ types, ∀ t, p.2 = .ok t → P t) :
    ∀ i ∈ items, i.1.isHashable = true ∧ P i.2 := by
  induction types generalizing items with
  | nil =>
      cases h
      exact nofun
  | cons p types ih =>
      obtain ⟨k, r⟩ := p
      obtain ⟨hr, hrest⟩ := List.forall_mem_cons.mp htypes
      rw [declaredItems] at h
      obtain ⟨t, ht, h⟩ := bind_eq_ok.mp h
      obtain ⟨key, hkey, h⟩ := bind_eq_ok.mp h
      obtain ⟨others, hothers, h⟩ := bind_eq_ok.mp h
      cases h
      obtain ⟨rfl, hashable⟩ := checkedKey_eq_ok hkey
      exact List.forall_mem_cons.mpr ⟨⟨hashable, hr t ht⟩, ih hothers hrest⟩

namespace Node

mutual
/-- **The types that documents declare** are fitting, whatever annotations
stand in them. -/
theorem inferType_fitting : (n : Node) → n.WellKeyed → ∀ {p : Position} {t : SchemaType},
    inferType p n = .ok t → t.Fitting
  | .plain v, h, p, _, ht => by
      rw [inferType] at ht
      cases ht
      exact Value.declaredType_fitting h p
  | .bare m, _, _, _, ht => by
      rw [inferType] at ht
      refine overriddenType_fitting ht ?_ ?_
      · rintro v hv
        cases hv
        trivial
      · rintro u hu
        cases hu
        trivial
  | .document d, h, _, _, ht => by
      rw [inferType] at ht
      exact heldType_fitting d h ht
  | .entry e, h, _, _, ht => by
      rw [inferType] at ht
      exact entryType_fitting e h ht
  | .item i, h, _, _, ht => by
      rw [inferType] at ht
      exact heldType_fitting i h ht
  | .map m es, h, _, _, ht => by
      rw [inferType] at ht
      refine overriddenType_fitting ht (fun v hv => toPlain_wellKeyed (.map m es) h hv) ?_
      intro u hu
      obtain ⟨items, hitems, hu⟩ := bind_eq_ok.mp hu
      cases hu
      refine ⟨Keyed.ofList_distinct items, SchemaType.itemsFitting_iff.mpr ?_⟩
      exact Keyed.forall_mem_ofList (P := fun k => k.isHashable = true)
        (Q := SchemaType.Fitting) (forall_mem_declaredItems hitems (entryTypes_fitting es h))
  | .array m is, h, _, _, ht => by
      rw [inferType] at ht
      refine overriddenType_fitting ht (fun v hv => toPlain_wellKeyed (.array m is) h hv) ?_
      intro u hu
      -- What the items are like does not matter: an array defaults to no items.
      cases hfirst : (itemTypes is).head? <;> rw [hfirst] at hu
      · cases hu
        trivial
      · obtain ⟨item, -, hu⟩ := bind_eq_ok.mp hu
        cases hu
        trivial

theorem heldType_fitting : (i : Held Node) → HeldWellKeyed i → ∀ {t : SchemaType},
    heldType i = .ok t → t.Fitting
  | ⟨m, n⟩, h, _, ht => by
      rw [heldType] at ht
      exact overriddenType_fitting ht (fun v hv => toPlain_wellKeyed n h hv)
        fun u hu => inferType_fitting n h hu

theorem entryType_fitting : (e : Entry Node) → EntryWellKeyed e → ∀ {t : SchemaType},
    entryType e = .ok t → t.Fitting
  | ⟨m, _, n⟩, h, _, ht => by
      rw [entryType] at ht
      exact overriddenType_fitting ht (fun v hv => toPlain_wellKeyed n h hv)
        fun u hu => inferType_fitting n h hu

theorem entryTypes_fitting : (es : List (Entry Node)) → EntriesWellKeyed es →
    ∀ p ∈ entryTypes es, ∀ t, p.2 = .ok t → t.Fitting
  | [], _, p, hp, _, _ => by
      rw [entryTypes] at hp
      cases hp
  | e :: es, h, p, hp, t, ht => by
      rw [entryTypes] at hp
      rcases List.mem_cons.mp hp with rfl | hp
      · exact entryType_fitting e h.1 ht
      · exact entryTypes_fitting es h.2 p hp t ht
end

end Node

/-! ## Schemas -/

/-- The defaults of a schema are a document whose plain value is the default of
its type, which the type accepts. -/
theorem DocumentSchema.exists_defaults {d : Document} {s : DocumentSchema}
    (wellKeyed : d.WellKeyed) (made : ofDocument d = .ok s) :
    ∃ v, s.defaultValues = .ok v ∧ v.value.toPlain = .ok s.type.default ∧
      s.type.violations [] s.type.default = [] := by
  obtain ⟨t, ht, made⟩ := bind_eq_ok.mp made
  cases made
  have fitting : t.Fitting := Node.heldType_fitting d wellKeyed ht
  have hdefault : t.defaultValue = .ok t.default := by
    rw [SchemaType.defaultValue, if_pos (SchemaType.hasDefault_of_fitting t fitting)]
  refine ⟨⟨.ofPosition d.mark.position, Node.ofPlain (.ofPosition .unknown) t.default⟩, ?_,
    Node.toPlain_ofPlain _ _ (SchemaType.default_wellKeyed t fitting),
    SchemaType.violations_default t fitting []⟩
  rw [defaultValues, hdefault]
  rfl

end Stencil
