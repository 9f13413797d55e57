import Stencil.Text.Named

/-!
# Names that differ

Writing pairs one by one changes nothing when no name comes up twice: what
is left is the list of the pairs itself. A table of a function, which has a
pair for every name that has a value, is such a list if the names differ, and
what is looked up in it is the value of the function. Looking up does not
depend on the order of pairs whose names differ.

## Main definitions

* `Named.Puts` — the two ways to write under a name.
* `Named.table` — the names that have a value, with their values.

## Main results

* `Named.puts_iff` — writing goes one of these ways.
* `Named.ofList_of_nodup` — pairs whose names differ stay as they are.
* `Named.lookup_table` — what is found in a table.
* `Named.lookup_of_perm` — the order of pairs does not matter.
* `Named.lookup_filter` — nor do pairs with other names.
* `Named.lookup_ofList` — what is found after writing pairs one by one.
-/

namespace Stencil.Named

variable {ν α : Type} [DecidableEq ν]

/-! ## Writing -/

/-- The pairs that are left after a value is written under a name. A new name goes to the
end. A name that is there keeps its place, where it comes first, and has the new value. -/
inductive Puts (name : ν) (a : α) : List (ν × α) → List (ν × α) → Prop
  | new {pairs : List (ν × α)} (absent : name ∉ pairs.map (·.1)) :
    Puts name a pairs (pairs ++ [(name, a)])
  | again {before after : List (ν × α)} {b : α} (first : name ∉ before.map (·.1)) :
    Puts name a (before ++ (name, b) :: after) (before ++ (name, a) :: after)

/-- A new name goes to the end. -/
theorem put_of_notMem {name : ν} {a : α} {pairs : List (ν × α)}
    (h : name ∉ pairs.map (·.1)) : put name a pairs = pairs ++ [(name, a)] := by
  induction pairs with
  | nil => rfl
  | cons p pairs ih =>
      rw [List.map_cons, List.mem_cons, not_or] at h
      simp only [put, if_neg (Ne.symm h.1), ih h.2]
      rfl

/-- Where a name that is there comes first. -/
theorem exists_first {name : ν} {pairs : List (ν × α)} (h : name ∈ pairs.map (·.1)) :
    ∃ before after b, pairs = before ++ (name, b) :: after ∧ name ∉ before.map (·.1) := by
  induction pairs with
  | nil => cases h
  | cons p pairs ih =>
      obtain ⟨n, b⟩ := p
      by_cases hn : name = n
      · subst hn
        exact ⟨[], pairs, b, rfl, List.not_mem_nil⟩
      · obtain ⟨before, after, c, rfl, first⟩ := ih ((List.mem_cons.mp h).resolve_left hn)
        exact ⟨(n, b) :: before, after, c, rfl, fun h => (List.mem_cons.mp h).elim hn first⟩

/-- A name that is there keeps its place. -/
theorem put_of_first {name : ν} {a b : α} {before after : List (ν × α)}
    (first : name ∉ before.map (·.1)) :
    put name a (before ++ (name, b) :: after) = before ++ (name, a) :: after := by
  induction before with
  | nil => exact if_pos rfl
  | cons p before ih =>
      rw [List.map_cons, List.mem_cons, not_or] at first
      simp only [List.cons_append, put, if_neg (Ne.symm first.1), ih first.2]

/-- **Writing goes one of the two ways.** -/
theorem puts_iff {name : ν} {a : α} {pairs pairs' : List (ν × α)} :
    Puts name a pairs pairs' ↔ pairs' = put name a pairs := by
  constructor
  · rintro (absent | first)
    · exact (put_of_notMem absent).symm
    · exact (put_of_first first).symm
  · rintro rfl
    by_cases h : name ∈ pairs.map (·.1)
    · obtain ⟨before, after, b, rfl, first⟩ := exists_first h
      rw [put_of_first first]
      exact .again first
    · rw [put_of_notMem h]
      exact .new h

/-- **Pairs whose names differ** stay as they are. -/
theorem ofList_of_nodup {pairs : List (ν × α)} (h : (pairs.map (·.1)).Nodup) :
    ofList pairs = pairs := by
  suffices hsuff : ∀ before : List (ν × α), ((before ++ pairs).map (·.1)).Nodup →
      pairs.foldl (fun named p => put p.1 p.2 named) before = before ++ pairs from
    hsuff [] h
  clear h
  induction pairs with
  | nil => intro before _; exact (List.append_nil before).symm
  | cons p pairs ih =>
      intro before h
      have hnew : p.1 ∉ before.map (·.1) := by
        rw [List.map_append, List.nodup_append] at h
        intro hmem
        exact h.2.2 p.1 hmem p.1 (List.mem_cons_self ..) rfl
      rw [List.foldl_cons, put_of_notMem hnew]
      have h' : ((before ++ [(p.1, p.2)] ++ pairs).map (·.1)).Nodup := by
        rw [List.append_assoc]
        exact h
      rw [ih _ h', List.append_assoc]
      rfl

/-- What holds of the pair that is written and of all others holds of every pair
that is left. -/
theorem forall_mem_put {P : ν × α → Prop} {name : ν} {a : α} {pairs : List (ν × α)}
    (hname : P (name, a)) (h : ∀ p ∈ pairs, P p) : ∀ p ∈ put name a pairs, P p := by
  induction pairs with
  | nil => exact List.forall_mem_singleton.mpr hname
  | cons p pairs ih =>
      obtain ⟨hp, hpairs⟩ := List.forall_mem_cons.mp h
      rw [put]
      split
      · next heq => exact List.forall_mem_cons.mpr ⟨heq ▸ hname, hpairs⟩
      · exact List.forall_mem_cons.mpr ⟨hp, ih hpairs⟩

theorem forall_mem_ofList {P : ν × α → Prop} {pairs : List (ν × α)} (h : ∀ p ∈ pairs, P p) :
    ∀ p ∈ ofList pairs, P p := by
  suffices hsuff : ∀ named : List (ν × α), (∀ p ∈ named, P p) →
      ∀ p ∈ pairs.foldl (fun named p => put p.1 p.2 named) named, P p from
    hsuff [] nofun
  induction pairs with
  | nil => exact fun named hnamed => hnamed
  | cons p pairs ih =>
      intro named hnamed
      obtain ⟨hp, hpairs⟩ := List.forall_mem_cons.mp h
      exact ih hpairs _ (forall_mem_put hp hnamed)

/-- The names that are left differ. -/
theorem put_nodup {name : ν} {a : α} {pairs : List (ν × α)} (h : (pairs.map (·.1)).Nodup) :
    ((put name a pairs).map (·.1)).Nodup := by
  induction pairs with
  | nil => exact List.pairwise_singleton _ name
  | cons p pairs ih =>
      obtain ⟨hnew, hpairs⟩ := List.nodup_cons.mp h
      have hother : ∀ q ∈ pairs, q.1 ≠ p.1 :=
        fun q hq heq => hnew (List.mem_map.mpr ⟨q, hq, heq⟩)
      rw [put]
      split
      · exact h
      · next hne =>
        refine List.nodup_cons.mpr ⟨fun again => ?_, ih hpairs⟩
        obtain ⟨q, hq, heq⟩ := List.mem_map.mp again
        exact forall_mem_put (P := fun q => q.1 ≠ p.1) (Ne.symm hne) hother q hq heq

theorem ofList_nodup (pairs : List (ν × α)) : ((ofList pairs).map (·.1)).Nodup := by
  suffices hsuff : ∀ named : List (ν × α), (named.map (·.1)).Nodup →
      ((pairs.foldl (fun named p => put p.1 p.2 named) named).map (·.1)).Nodup from
    hsuff [] List.nodup_nil
  induction pairs with
  | nil => exact fun named hnamed => hnamed
  | cons p pairs ih => exact fun named hnamed => ih _ (put_nodup hnamed)

/-! ## Looking up -/

section Lookup

variable [BEq ν] [LawfulBEq ν]

omit [DecidableEq ν] in
/-- What is found among pairs whose names differ is what is there. -/
theorem lookup_eq_some_of_nodup {pairs : List (ν × α)} (h : (pairs.map (·.1)).Nodup) {name : ν}
    {a : α} (mem : (name, a) ∈ pairs) : pairs.lookup name = some a := by
  induction pairs with
  | nil => cases mem
  | cons p pairs ih =>
      rw [List.map_cons, List.nodup_cons] at h
      rcases List.mem_cons.mp mem with rfl | mem
      · exact List.lookup_cons_self
      · have hne : name ≠ p.1 := by
          intro hname
          exact h.1 (hname ▸ List.mem_map_of_mem (f := (·.1)) mem)
        rw [List.lookup_cons, beq_eq_false_iff_ne.mpr hne]
        exact ih h.2 mem

theorem lookup_cons_ite (name : ν) (p : ν × α) (pairs : List (ν × α)) :
    (p :: pairs).lookup name = if name = p.1 then some p.2 else pairs.lookup name := by
  rw [List.lookup_cons]
  by_cases h : name = p.1
  · rw [if_pos h, beq_iff_eq.mpr h]
  · rw [if_neg h, beq_eq_false_iff_ne.mpr h]

/-- What is found after writing is what was written under the name, or what was found
before. -/
theorem lookup_put (name other : ν) (a : α) (pairs : List (ν × α)) :
    (put other a pairs).lookup name = if name = other then some a else pairs.lookup name := by
  induction pairs with
  | nil => exact lookup_cons_ite ..
  | cons p pairs ih =>
      obtain ⟨n, b⟩ := p
      rw [put]
      split
      · next heq =>
        subst heq
        rw [lookup_cons_ite, lookup_cons_ite]
        split <;> rfl
      · next hne =>
        rw [lookup_cons_ite, lookup_cons_ite, ih]
        by_cases h : name = n
        · rw [if_pos h, if_pos h, if_neg (h ▸ hne)]
        · rw [if_neg h, if_neg h]

/-- **What is found after writing pairs** one by one is the last one. -/
theorem lookup_ofList (pairs : List (ν × α)) (name : ν) :
    (ofList pairs).lookup name = pairs.reverse.lookup name := by
  suffices hsuff : ∀ named : List (ν × α),
      (pairs.foldl (fun named p => put p.1 p.2 named) named).lookup name =
        (pairs.reverse ++ named).lookup name by
    rw [ofList, hsuff, List.append_nil]
  induction pairs with
  | nil => exact fun named => rfl
  | cons p pairs ih =>
      intro named
      rw [List.foldl_cons, ih, List.reverse_cons, List.append_assoc, List.lookup_append,
        List.lookup_append, lookup_put, List.singleton_append, lookup_cons_ite]

omit [DecidableEq ν] in
theorem mem_of_lookup_eq_some {pairs : List (ν × α)} {name : ν} {a : α}
    (h : pairs.lookup name = some a) : (name, a) ∈ pairs := by
  obtain ⟨before, after, rfl, -⟩ := List.lookup_eq_some_iff.mp h
  exact List.mem_append_right _ (List.mem_cons_self ..)

omit [DecidableEq ν] in
/-- **The order of pairs** whose names differ does not matter for what is
found. -/
theorem lookup_of_perm {pairs pairs' : List (ν × α)} (perm : pairs.Perm pairs')
    (h : (pairs.map (·.1)).Nodup) (name : ν) : pairs.lookup name = pairs'.lookup name := by
  have h' : (pairs'.map (·.1)).Nodup := (perm.map _).nodup_iff.mp h
  cases found : pairs'.lookup name with
  | some a =>
      exact lookup_eq_some_of_nodup h (perm.symm.subset (mem_of_lookup_eq_some found))
  | none =>
      cases found' : pairs.lookup name with
      | none => rfl
      | some a =>
          rw [lookup_eq_some_of_nodup h' (perm.subset (mem_of_lookup_eq_some found'))] at found
          cases found

/-- **What is found among some of the pairs**, picked out by their names. -/
theorem lookup_filter {p : ν → Bool} {name : ν} (h : p name = true) (pairs : List (ν × α)) :
    (pairs.filter fun q => p q.1).lookup name = pairs.lookup name := by
  induction pairs with
  | nil => rfl
  | cons q pairs ih =>
      obtain ⟨n, a⟩ := q
      simp only [List.filter_cons]
      by_cases hname : name = n
      · subst hname
        rw [if_pos h, List.lookup_cons_self, List.lookup_cons_self]
      · have hne : (name == n) = false := beq_eq_false_iff_ne.mpr hname
        split
        · rw [List.lookup_cons, List.lookup_cons, ih]
        · rw [List.lookup_cons, hne, ih]

end Lookup

/-! ## Tables -/

/-- The names among some that have a value, with their values. -/
def table (value : ν → Option α) (names : List ν) : List (ν × α) :=
  names.filterMap fun n => (value n).map (n, ·)

variable {value : ν → Option α} {names : List ν}

omit [DecidableEq ν] in
theorem mem_table {n : ν} {a : α} :
    (n, a) ∈ table value names ↔ n ∈ names ∧ value n = some a := by
  simp [table]

omit [DecidableEq ν] in
theorem table_names (value : ν → Option α) (names : List ν) :
    (table value names).map (·.1) = names.filter fun n => (value n).isSome := by
  induction names with
  | nil => rfl
  | cons n names ih =>
      rw [table, List.filterMap_cons, List.filter_cons]
      cases value n with
      | none => exact ih
      | some a => exact congrArg (n :: ·) ih

/-- A table of names that differ is one that can be written pair by pair. -/
theorem ofList_table (h : names.Nodup) : ofList (table value names) = table value names := by
  refine ofList_of_nodup ?_
  rw [table_names]
  exact List.Pairwise.filter _ h

/-- **What is found in a table** is the value of the name. -/
theorem lookup_table {name : ν} (h : name ∈ names) :
    (table value names).lookup name = value name := by
  induction names with
  | nil => cases h
  | cons n names ih =>
      rw [table, List.filterMap_cons]
      by_cases hn : name = n
      · subst hn
        cases hv : value name with
        | some a => exact List.lookup_cons_self
        | none =>
            -- A name without a value is found nowhere, however often it comes up.
            rw [Option.map_none, List.lookup_eq_none_iff]
            intro p hp
            obtain ⟨m, -, hm⟩ := List.mem_filterMap.mp hp
            obtain ⟨a, ha, rfl⟩ := Option.map_eq_some_iff.mp hm
            rw [bne_iff_ne]
            rintro rfl
            rw [hv] at ha
            cases ha
      · have hrest := ih ((List.mem_cons.mp h).resolve_left hn)
        cases value n with
        | none => exact hrest
        | some a =>
            rw [Option.map_some, List.lookup_cons, beq_eq_false_iff_ne.mpr hn]
            exact hrest

omit [DecidableEq ν] in
/-- A table of a table. -/
theorem filterMap_table {β : Type} (next : ν → α → Option β) :
    (table value names).filterMap (fun p => (next p.1 p.2).map (p.1, ·)) =
      table (fun n => (value n).bind (next n)) names := by
  rw [table, table, List.filterMap_filterMap]
  congr 1
  funext n
  cases value n <;> rfl

end Stencil.Named
