import Stencil.Proofs.Document.Lookup
import Stencil.Proofs.Schema.Accepting
import Stencil.Document.Merge
import Stencil.Value.Merge

/-!
# Merging what a schema accepts

A schema is checked against values that have been laid over its defaults, one
document after another. Nothing is lost by checking the documents one by one:
if a type accepts two values, it accepts one laid over the other.

The reason is that a type looks into a map one key at a time. What it asks of a
map is what it asks under each key, so a map made of the entries of two accepted
maps is accepted, and under a key that both have the argument repeats itself.
Where two values are not both maps, one of them replaces the other and nothing
is to be shown.

Documents merge as trees, before they are plain values. There a key that is
written twice in one map stays twice, and its place is the one where it first
equals a key; so the trees are compared with plain values where no map repeats
a key or has a NaN for one.

## Main definitions

* `SchemaType.WellKeyed` — types whose declared keys can be keys.
* `SchemaType.under?`, `SchemaType.Asks` — what a type asks under a key, and
  entries that have it.
* `Node.SingleKeyed` — trees in which keys are single.

## Main results

* `SchemaType.accepts_map_iff` — a type accepts a map one key at a time.
* `SchemaType.accepts_mergeOver` — a value laid over another.
* `Node.fits_mergeOver` — a tree laid over another.
* `merged_accepted` — documents laid over the defaults of a schema.
-/

namespace Stencil

/-! ## Changing entries -/

namespace Keyed

variable {α : Type}

/-- An entry after a change is an old one, or what was added, or a changed one
under its old key. -/
theorem mem_update {k : Value} {change : α → α} {a : α} {es : List (Value × α)} {e : Value × α}
    (h : e ∈ update k change a es) :
    e ∈ es ∨ e = (k, a) ∨ ∃ b, (e.1, b) ∈ es ∧ e.1.same k = true ∧ e.2 = change b := by
  induction es with
  | nil => exact .inr (.inl (List.mem_singleton.mp h))
  | cons f es ih =>
      rw [update] at h
      split at h
      · next hsame =>
          rcases List.mem_cons.mp h with rfl | h
          · exact .inr (.inr ⟨f.2, List.mem_cons_self .., hsame, rfl⟩)
          · exact .inl (List.mem_cons_of_mem _ h)
      · rcases List.mem_cons.mp h with rfl | h
        · exact .inl (List.mem_cons_self ..)
        · rcases ih h with h | h | ⟨b, mem, h⟩
          · exact .inl (List.mem_cons_of_mem _ h)
          · exact .inr (.inl h)
          · exact .inr (.inr ⟨b, List.mem_cons_of_mem _ mem, h⟩)

end Keyed

/-- An entry after a change is an old one, or the new one, or a changed one. -/
theorem Entry.mem_putOver {α : Type} {change : Entry α → Entry α} {e x : Entry α}
    {es : List (Entry α)} (h : x ∈ putOver change e es) :
    x ∈ es ∨ x = e ∨ ∃ b ∈ es, b.key.equal e.key = true ∧ x = change b := by
  induction es with
  | nil => exact .inr (.inl (List.mem_singleton.mp h))
  | cons b es ih =>
      rw [putOver] at h
      split at h
      · next hequal =>
          rcases List.mem_cons.mp h with rfl | h
          · exact .inr (.inr ⟨b, List.mem_cons_self .., hequal, rfl⟩)
          · exact .inl (List.mem_cons_of_mem _ h)
      · rcases List.mem_cons.mp h with rfl | h
        · exact .inl (List.mem_cons_self ..)
        · rcases ih h with h | h | ⟨b, mem, h⟩
          · exact .inl (List.mem_cons_of_mem _ h)
          · exact .inr (.inl h)
          · exact .inr (.inr ⟨b, List.mem_cons_of_mem _ mem, h⟩)

/-- The forms of keys after a change are those before it, and at their end the
one of the new key if it was not there. -/
theorem Entry.putOver_forms {α : Type} {change : Entry α → Entry α} {e : Entry α}
    {es : List (Entry α)}
    (found : ∀ b ∈ es, b.key.equal e.key = true ↔ b.key.keyForm = e.key.keyForm)
    (kept : ∀ b ∈ es, b.key.equal e.key = true → (change b).key.keyForm = b.key.keyForm) :
    (putOver change e es).map (·.key.keyForm) = es.map (·.key.keyForm) ∨
      e.key.keyForm ∉ es.map (·.key.keyForm) ∧
        (putOver change e es).map (·.key.keyForm) =
          es.map (·.key.keyForm) ++ [e.key.keyForm] := by
  induction es with
  | nil => exact .inr ⟨List.not_mem_nil, rfl⟩
  | cons b es ih =>
      obtain ⟨hb, hes⟩ := List.forall_mem_cons.mp found
      obtain ⟨hkept, hrest⟩ := List.forall_mem_cons.mp kept
      rw [putOver]
      split
      · next hequal => exact .inl (by rw [List.map_cons, List.map_cons, hkept hequal])
      · next hother =>
          rcases ih hes hrest with h | ⟨hnew, h⟩
          · exact .inl (by rw [List.map_cons, List.map_cons, h])
          · refine .inr ⟨?_, by rw [List.map_cons, List.map_cons, h, List.cons_append]⟩
            rw [List.map_cons, List.mem_cons, not_or]
            exact ⟨fun form => hother (hb.mpr form.symm), hnew⟩

namespace SchemaType

/-! ## What a type asks of a map -/

mutual
/-- Whether the keys that a type declares can be keys, in every type that it is
made of. -/
def WellKeyed : SchemaType → Prop
  | .nullable _ wrapped => wrapped.WellKeyed
  | .map _ items => ItemsWellKeyed items
  | .array _ item => item.WellKeyed
  | .any _ _ | .scalar _ _ _ | .unruled _ => True

/-- Whether all keys of a map type can be keys, and the types under them are
well-keyed. -/
def ItemsWellKeyed : List (Value × SchemaType) → Prop
  | [] => True
  | (k, t) :: items => k.isHashable = true ∧ t.WellKeyed ∧ ItemsWellKeyed items
end

theorem itemsWellKeyed_iff {items : List (Value × SchemaType)} :
    ItemsWellKeyed items ↔ ∀ i ∈ items, i.1.isHashable = true ∧ i.2.WellKeyed := by
  induction items with
  | nil => simp [ItemsWellKeyed]
  | cons i items ih =>
      obtain ⟨k, t⟩ := i
      simp [ItemsWellKeyed, ih, and_assoc]

/-- The type that a type asks of what stands under a key of a map. A type that
does not look into maps asks nothing. -/
def under? (key : Value) : SchemaType → Option SchemaType
  | .nullable _ wrapped => wrapped.under? key
  | .map _ items => Keyed.find? key items
  | .any p _ | .scalar p _ _ | .array p _ | .unruled p => some (.any p .null)

/-- Whether what stands under the keys of a map is what a type asks for. -/
def Asks (t : SchemaType) (es : List (Value × Value)) : Prop :=
  ∀ e ∈ es, ∃ u, t.under? e.1 = some u ∧ u.Accepts e.2

theorem accepts_nullable_map (p : Position) {wrapped : SchemaType} {es : List (Value × Value)} :
    (nullable p wrapped).Accepts (.map es) ↔ wrapped.Accepts (.map es) := by
  rw [accepts_nullable_iff, or_iff_right (by simp)]

/-- A type that does not look into maps accepts all of them or none. -/
theorem accepts_map_of_blind {t : SchemaType} {p : Position}
    (blind : ∀ key, t.under? key = some (.any p .null))
    (alike : ∀ es, t.violations [] (.map es) = t.violations [] (.map [])) {es : List (Value × Value)} :
    t.Accepts (.map es) ↔ t.Accepts (.map []) ∧ t.Asks es := by
  rw [accepts_iff, accepts_iff, alike, iff_self_and]
  exact fun _ e _ => ⟨_, blind e.1, accepts_any ..⟩

/-- **A type accepts a map** if it accepts maps at all, and what stands under
each key. -/
theorem accepts_map_iff : (t : SchemaType) → ∀ {es : List (Value × Value)},
    t.Accepts (.map es) ↔ t.Accepts (.map []) ∧ t.Asks es
  | .nullable p wrapped, es => by
      rw [accepts_nullable_map, accepts_nullable_map]
      exact accepts_map_iff wrapped
  | .map p items, es => by
      have empty : (map p items).Accepts (.map []) := accepts_iff.mpr (by rw [violations]; rfl)
      rw [and_iff_right empty, accepts_iff, violations, List.flatMap_eq_nil_iff]
      refine forall₂_congr fun e _ => ?_
      simp only [violationsUnder_eq, under?]
      cases Keyed.find? e.1 items with
      | none => simp
      | some t =>
          simp only [Option.map_some, Option.getD_some, Option.some.injEq, exists_eq_left']
          exact ⟨fun h => accepts_iff.mpr (violations_nil t h), fun h => violations_of_accepts h _⟩
  | .any _ _, _ => accepts_map_of_blind (fun _ => rfl) fun _ => by rw [violations, violations]
  | .scalar _ _ _, _ => accepts_map_of_blind (fun _ => rfl) fun _ => by rw [violations, violations]; rfl
  | .array _ _, _ => accepts_map_of_blind (fun _ => rfl) fun _ => by
      rw [violations, violations]
      · rfl
      all_goals simp
  | .unruled _, _ => accepts_map_of_blind (fun _ => rfl) fun _ => by rw [violations, violations]

theorem under?_wellKeyed : (t : SchemaType) → t.WellKeyed → ∀ {key : Value} {u : SchemaType},
    t.under? key = some u → u.WellKeyed
  | .nullable _ wrapped, h, _, _, found => under?_wellKeyed wrapped h found
  | .map _ _, h, _, _, found => by
      obtain ⟨k, mem, -⟩ := Keyed.find?_eq_some found
      exact (itemsWellKeyed_iff.mp h _ mem).2
  | .any _ _, _, _, _, found | .scalar _ _ _, _, _, _, found | .array _ _, _, _, _, found
  | .unruled _, _, _, _, found => by
      cases found
      trivial

/-- Under keys that are the same, a type asks for the same. -/
theorem under?_same : (t : SchemaType) → t.WellKeyed → ∀ {a b : Value} {u : SchemaType},
    t.under? a = some u → a.same b = true → t.under? b = some u
  | .nullable _ wrapped, h, _, _, _, found, same => under?_same wrapped h found same
  | .map _ _, h, _, _, _, found, same =>
      Keyed.find?_same (fun i mem => (itemsWellKeyed_iff.mp h i mem).1) found same
  | .any _ _, _, _, _, _, found, _ | .scalar _ _ _, _, _, _, _, found, _
  | .array _ _, _, _, _, _, found, _ | .unruled _, _, _, _, _, found, _ => found

/-! ## Values laid over values -/

mutual
/-- **A value laid over another one is accepted** if both are. -/
theorem accepts_mergeOver : (patch : Value) → ∀ (t : SchemaType) (base : Value), t.WellKeyed →
    t.Accepts base → t.Accepts patch → t.Accepts (patch.mergeOver base)
  | .map ps => fun t base wellKeyed hbase hpatch => by
      cases base with
      | map es =>
          rw [accepts_map_iff] at hbase hpatch
          rw [Value.mergeOver, accepts_map_iff]
          exact ⟨hbase.1, asks_mergeEntriesOver ps wellKeyed hbase.2 hpatch.2⟩
      | _ =>
          rw [Value.mergeOver]
          · exact hpatch
          all_goals nofun
  | .null | .bool _ | .int _ | .float _ | .str _ | .bytes _ | .date _ | .list _ | .tuple _
  | .object _ | .node _ => fun _ _ _ _ hpatch => by
      rw [Value.mergeOver]
      · exact hpatch
      nofun

theorem asks_mergeEntriesOver : (ps : List (Value × Value)) →
    ∀ {t : SchemaType} {es : List (Value × Value)}, t.WellKeyed → t.Asks es → t.Asks ps →
      t.Asks (Value.mergeEntriesOver ps es)
  | [], _, _, _, hes, _ => by
      rw [Value.mergeEntriesOver]
      exact hes
  | (k, v) :: ps, t, es, wellKeyed, hes, hps => by
      obtain ⟨⟨u, hu, hv⟩, hrest⟩ := List.forall_mem_cons.mp hps
      rw [Value.mergeEntriesOver]
      refine asks_mergeEntriesOver ps wellKeyed (fun e he => ?_) hrest
      rcases Keyed.mem_update he with he | rfl | ⟨old, mem, same, changed⟩
      · exact hes e he
      · exact ⟨u, hu, hv⟩
      · -- What the type asks for under the key of the patch, it asks for under the old key.
        obtain ⟨w, hw, hold⟩ := hes _ mem
        have hboth : t.under? k = some w := under?_same t wellKeyed hw same
        rw [hu] at hboth
        cases hboth
        rw [changed]
        exact ⟨u, hw, accepts_mergeOver v u old (under?_wellKeyed t wellKeyed hw) hold hv⟩
end

end SchemaType

namespace Node

/-- Trees in which no map repeats a key or has a NaN for one, down through the
maps in maps. -/
inductive SingleKeyed : Node → Prop
  | map {m : Mark} {es : List (Entry Node)}
      (distinct : es.Pairwise fun a b => a.key.same b.key = false)
      (equal : ∀ e ∈ es, e.key.equal e.key = true)
      (below : ∀ e ∈ es, SingleKeyed e.value) : SingleKeyed (.map m es)
  | other {n : Node} (no_map : ∀ m es, n ≠ .map m es) : SingleKeyed n

/-- Whether a tree has single keys, and a plain value that a type accepts. -/
def Fits (t : SchemaType) (n : Node) : Prop :=
  n.SingleKeyed ∧ ∃ v, n.toPlain = .ok v ∧ t.Accepts v

/-- Whether the keys of entries are single, and what stands under each fits
what a type asks of a map. -/
structure EntriesFit (t : SchemaType) (es : List (Entry Node)) : Prop where
  forms : (es.map fun e => e.key.keyForm).Nodup
  each : ∀ e ∈ es, e.key.equal e.key = true ∧ e.key.isHashable = true ∧
    ∃ u, t.under? e.key = some u ∧ Fits u e.value

/-- Entries have plain values of which a type asks what is there exactly if each
entry has. -/
theorem exists_entriesPlain {t : SchemaType} {es : List (Entry Node)} :
    (∃ plain, entriesPlain es = .ok plain ∧ t.Asks plain) ↔
      ∀ e ∈ es, e.key.isHashable = true ∧
        ∃ u, t.under? e.key = some u ∧ ∃ v, e.value.toPlain = .ok v ∧ u.Accepts v := by
  induction es with
  | nil =>
      exact ⟨fun _ => List.forall_mem_nil _,
        fun _ => ⟨[], by rw [entriesPlain], List.forall_mem_nil _⟩⟩
  | cons e es ih =>
      rw [List.forall_mem_cons, ← ih]
      constructor
      · rintro ⟨plain, h, asks⟩
        rw [entriesPlain] at h
        obtain ⟨v, hv, h⟩ := bind_eq_ok.mp h
        obtain ⟨key, hkey, h⟩ := bind_eq_ok.mp h
        obtain ⟨rest, hrest, h⟩ := bind_eq_ok.mp h
        cases h
        obtain ⟨rfl, hashable⟩ := checkedKey_eq_ok hkey
        obtain ⟨⟨u, hu, accepts⟩, hasks⟩ := List.forall_mem_cons.mp asks
        exact ⟨⟨hashable, u, hu, v, hv, accepts⟩, rest, hrest, hasks⟩
      · rintro ⟨⟨hashable, u, hu, v, hv, accepts⟩, rest, hrest, asks⟩
        refine ⟨(e.key, v) :: rest, ?_, List.forall_mem_cons.mpr ⟨⟨u, hu, accepts⟩, asks⟩⟩
        rw [entriesPlain, hv, checkedKey_of_hashable hashable, hrest]
        rfl

/-- The plain value of a map whose keys differ has an entry for each. -/
theorem toPlain_map {m : Mark} {es : List (Entry Node)} {plain : List (Value × Value)}
    (hplain : entriesPlain es = .ok plain)
    (distinct : es.Pairwise fun a b => a.key.same b.key = false) :
    (Node.map m es).toPlain = .ok (.map plain) := by
  have hkeys : Keyed.Distinct plain := by
    rw [Keyed.distinct_iff_keys, entriesPlain_keys hplain, List.pairwise_map]
    exact distinct
  rw [toPlain, hplain]
  show Except.ok (Value.map (Keyed.ofList plain)) = _
  rw [Keyed.ofList_of_distinct hkeys]

/-- A map fits a type exactly if the type accepts maps at all and the entries
fit. -/
theorem fits_map_iff {t : SchemaType} {m : Mark} {es : List (Entry Node)} :
    Fits t (.map m es) ↔ t.Accepts (.map []) ∧ EntriesFit t es := by
  constructor
  · rintro ⟨single, v, hv, accepts⟩
    cases single with
    | other no_map => exact absurd rfl (no_map m es)
    | map distinct equal below =>
        have hv' := hv
        rw [toPlain] at hv'
        obtain ⟨plain, hplain, -⟩ := bind_eq_ok.mp hv'
        rw [toPlain_map hplain distinct] at hv
        cases hv
        obtain ⟨maps, asks⟩ := (SchemaType.accepts_map_iff t).mp accepts
        have each := exists_entriesPlain.mp ⟨plain, hplain, asks⟩
        refine ⟨maps, (forms_nodup fun e he => (each e he).1).mpr distinct, fun e he => ?_⟩
        obtain ⟨hashable, u, hu, accepted⟩ := each e he
        exact ⟨equal e he, hashable, u, hu, below e he, accepted⟩
  · rintro ⟨maps, fit⟩
    have distinct := (forms_nodup fun e he => (fit.each e he).2.1).mp fit.forms
    obtain ⟨plain, hplain, asks⟩ := exists_entriesPlain.mpr fun e he => by
      obtain ⟨-, hashable, u, hu, -, accepted⟩ := fit.each e he
      exact ⟨hashable, u, hu, accepted⟩
    refine ⟨.map distinct (fun e he => (fit.each e he).1) fun e he => ?_, _,
      toPlain_map hplain distinct, (SchemaType.accepts_map_iff t).mpr ⟨maps, asks⟩⟩
    obtain ⟨-, -, u, -, below, -⟩ := fit.each e he
    exact below

/-- An entry laid over another keeps the key and the mark below if both hold
maps, and else replaces it. -/
theorem mergeEntryOver_cases (patch base : Entry Node) :
    mergeEntryOver patch base = { base with value := patch.value.mergeOver base.value } ∨
      mergeEntryOver patch base = patch := by
  obtain ⟨m, k, v⟩ := patch
  obtain ⟨below, key, old⟩ := base
  cases v with
  | map m' ps => cases old <;> simp [mergeEntryOver]
  | _ => simp [mergeEntryOver]

mutual
/-- **A tree laid over another one fits** if both do. -/
theorem fits_mergeOver : (patch : Node) → ∀ (t : SchemaType) (base : Node), t.WellKeyed →
    Fits t base → Fits t patch → Fits t (patch.mergeOver base)
  | .map m ps => fun t base wellKeyed hbase hpatch => by
      cases base with
      | map below es =>
          rw [fits_map_iff] at hbase hpatch
          rw [mergeOver, fits_map_iff]
          exact ⟨hbase.1, entriesFit_mergeEntriesOver ps t es wellKeyed hbase.2 hpatch.2⟩
      | _ =>
          rw [mergeOver]
          · exact hpatch
          all_goals nofun
  | .plain _ | .bare _ | .document _ | .entry _ | .item _ | .array _ _ => fun _ _ _ _ hpatch => by
      rw [mergeOver]
      · exact hpatch
      nofun

theorem entriesFit_mergeEntriesOver : (ps : List (Entry Node)) →
    ∀ (t : SchemaType) (es : List (Entry Node)), t.WellKeyed → EntriesFit t es → EntriesFit t ps →
      EntriesFit t (mergeEntriesOver ps es)
  | [], _, _, _, hes, _ => by
      rw [mergeEntriesOver]
      exact hes
  | ⟨m, k, v⟩ :: ps, t, es, wellKeyed, hes, hps => by
      obtain ⟨⟨hself, hashable, u, hu, hv⟩, hrest⟩ := List.forall_mem_cons.mp hps.each
      have found : ∀ b ∈ es, b.key.equal k = true ↔ b.key.keyForm = k.keyForm :=
        fun b hb => Value.equal_iff_keyForm (hes.each b hb).2.1 hself
      have kept : ∀ b ∈ es, b.key.equal k = true →
          (mergeEntryOver ⟨m, k, v⟩ b).key.keyForm = b.key.keyForm := by
        intro b hb hequal
        rcases mergeEntryOver_cases ⟨m, k, v⟩ b with h | h
        · rw [h]
        · rw [h, (found b hb).mp hequal]
      rw [mergeEntriesOver]
      refine entriesFit_mergeEntriesOver ps t _ wellKeyed ⟨?_, fun x hx => ?_⟩
        ⟨hps.forms.of_cons, hrest⟩
      · rcases Entry.putOver_forms (e := ⟨m, k, v⟩) found kept with h | ⟨hnew, h⟩
        · rw [h]
          exact hes.forms
        · rw [h, List.nodup_append]
          refine ⟨hes.forms, List.pairwise_singleton _ _, fun a ha b hb same => hnew ?_⟩
          rw [← List.mem_singleton.mp hb, ← same]
          exact ha
      · rcases Entry.mem_putOver hx with hx | rfl | ⟨b, hb, hequal, rfl⟩
        · exact hes.each x hx
        · exact ⟨hself, hashable, u, hu, hv⟩
        · rcases mergeEntryOver_cases ⟨m, k, v⟩ b with h | h
          · -- Both hold maps: what the type asks for under one key, it asks for under the other.
            obtain ⟨hself', hashable', w, hw, hold⟩ := hes.each b hb
            have same : b.key.same k = true :=
              (Value.same_iff_keyForm _ hashable').mpr ((found b hb).mp hequal)
            have hboth : t.under? k = some w := SchemaType.under?_same t wellKeyed hw same
            rw [hu] at hboth
            cases hboth
            rw [h]
            have hu' : u.WellKeyed := SchemaType.under?_wellKeyed t wellKeyed hw
            exact ⟨hself', hashable', u, hw, fits_mergeOver v u b.value hu' hold hv⟩
          · rw [h]
            exact ⟨hself, hashable, u, hu, hv⟩
end

end Node

/-! ## Schemas -/

end Stencil
