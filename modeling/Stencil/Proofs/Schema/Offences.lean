import Stencil.Proofs.Schema.Defaults
import Stencil.Proofs.Value.Forms
import Stencil.Proofs.Value.Trails

/-!
# What is wrong with a value, and where

Checking descends into a value with a path that is written as it goes. What is wrong
with the value, and where, can be told apart from how the path is written: an
offence has the steps that lead to it, counted from the value, and the violations at
any path are the offences put in words. So their number, their order and whether
there are any have nothing to do with the path.

## Main definitions

* `SchemaType.parts` — the types that a type is made of.
* `SchemaType.offences` — all that is wrong with a value, in order.
* `SchemaType.Offence.violation` — an offence in words, at a path.

## Main results

* `SchemaType.partInduction` — induction by the types that a type is made of.
* `SchemaType.violations_eq` — the violations are the offences in words.
-/

namespace Stencil

/-- The path after one more step. -/
def Step.extend (path : Text) : Step → Text
  | .key k => SchemaType.keyPath path k
  | .index i => SchemaType.indexPath path i

namespace SchemaType

/-! ## Induction -/

/-- The types that a type is made of. -/
def parts : SchemaType → List SchemaType
  | .nullable _ wrapped => [wrapped]
  | .map _ items => items.map (·.2)
  | .array _ item => [item]
  | _ => []

/-- What is found under a key is a part of a map. -/
theorem mem_parts_of_find? {p : Position} {items : List (Value × SchemaType)} {key : Value}
    {t : SchemaType} (found : Keyed.find? key items = some t) : t ∈ (map p items).parts := by
  obtain ⟨k, declared, -⟩ := Keyed.find?_eq_some found
  exact List.mem_map.mpr ⟨(k, t), declared, rfl⟩

variable {P : SchemaType → Prop}

mutual
/-- What holds of a type if it holds of the types that it is made of holds of every
type. -/
theorem partInduction (step : ∀ t : SchemaType, (∀ u ∈ t.parts, P u) → P t) :
    (t : SchemaType) → P t
  | .any p d => step (.any p d) nofun
  | .nullable p wrapped =>
    step (.nullable p wrapped) (List.forall_mem_singleton.mpr (partInduction step wrapped))
  | .scalar p kind d => step (.scalar p kind d) nofun
  | .map p items => step (.map p items) (List.forall_mem_map.mpr (partInduction_items step items))
  | .array p item => step (.array p item) (List.forall_mem_singleton.mpr (partInduction step item))
  | .unruled p => step (.unruled p) nofun

theorem partInduction_items (step : ∀ t : SchemaType, (∀ u ∈ t.parts, P u) → P t) :
    (items : List (Value × SchemaType)) → ∀ i ∈ items, P i.2
  | [] => nofun
  | (_, t) :: items =>
    List.forall_mem_cons.mpr ⟨partInduction step t, partInduction_items step items⟩
end

/-! ## Offences -/

/-- What is wrong at a position: the value there is of the wrong kind for a type, or
the key that leads there is not declared by the map at some place, or there is no
rule. -/
inductive Cause where
  | mismatch (t : SchemaType) (found : Value.Kind)
  | undeclared (declared : Position)
  | unruled
  deriving Repr

/-- Something that is wrong with a value, and where. -/
structure Offence where
  trail : List Step
  cause : Cause
  deriving Repr

/-- What is wrong with a value, seen from the value one step above. -/
def Offence.below (s : Step) (o : Offence) : Offence := ⟨s :: o.trail, o.cause⟩

mutual
/-- All that is wrong with a value, from the top down and in order. -/
def offences (v : Value) : SchemaType → List Offence
  | .any _ _ => []
  | .nullable _ wrapped =>
    match v with
    | .null => []
    | _ => wrapped.offences v
  | .scalar p kind d =>
    if acceptsKind kind v.kind then [] else [⟨[], .mismatch (.scalar p kind d) v.kind⟩]
  | .map p items =>
    match v with
    | .map es =>
      es.flatMap fun e =>
        ((offencesUnder e.1 e.2 items).getD [⟨[], .undeclared p⟩]).map (Offence.below (.key e.1))
    | _ => [⟨[], .mismatch (.map p items) v.kind⟩]
  | .array p item =>
    match v with
    | .list xs => xs.zipIdx.flatMap fun x => (item.offences x.1).map (Offence.below (.index x.2))
    | _ => [⟨[], .mismatch (.array p item) v.kind⟩]
  | .unruled _ => [⟨[], .unruled⟩]

/-- All that is wrong with the value under a key, if the key is declared. -/
def offencesUnder (key v : Value) : List (Value × SchemaType) → Option (List Offence)
  | [] => none
  | (k, t) :: items => if k.same key then some (t.offences v) else offencesUnder key v items
end

/-- What is wrong under a key is what is wrong for the type that is found there. -/
theorem offencesUnder_eq (key v : Value) (items : List (Value × SchemaType)) :
    offencesUnder key v items = (Keyed.find? key items).map (offences v) := by
  induction items with
  | nil => rw [offencesUnder, Keyed.find?, Option.map_none]
  | cons i items ih =>
      rw [offencesUnder, Keyed.find?, ih]
      split <;> rfl

variable {p : Position} {v : Value}

theorem offences_nullable {wrapped : SchemaType} (given : v ≠ .null) :
    (nullable p wrapped).offences v = wrapped.offences v := by
  rw [offences]
  exact given

theorem offences_map_of_other {items : List (Value × SchemaType)} (other : ∀ es, v ≠ .map es) :
    (map p items).offences v = [⟨[], .mismatch (.map p items) v.kind⟩] := by
  rw [offences]
  exact other

theorem offences_array_of_other {item : SchemaType} (other : ∀ xs, v ≠ .list xs) :
    (array p item).offences v = [⟨[], .mismatch (.array p item) v.kind⟩] := by
  rw [offences]
  exact other

theorem offences_map {items : List (Value × SchemaType)} {es : List (Value × Value)} :
    (map p items).offences (.map es) = es.flatMap fun e =>
      (((Keyed.find? e.1 items).map (offences e.2)).getD [⟨[], .undeclared p⟩]).map
        (Offence.below (.key e.1)) := by
  rw [offences]
  simp only [offencesUnder_eq]

/-! ## Offences in words -/

/-- An offence as a violation, if the value stands at a path. -/
def Offence.violation (path : Text) (o : Offence) : Violation :=
  match o.cause with
  | .mismatch t found => .mismatch (o.trail.foldl Step.extend path) t.name found t.position
  | .undeclared p => .undeclared (o.trail.foldl Step.extend path) p
  | .unruled => .unruled

/-- **The violations** are the offences in words. -/
theorem violations_eq (t : SchemaType) : ∀ (path : Text) (v : Value),
    t.violations path v = (t.offences v).map (Offence.violation path) := by
  induction t using partInduction with
  | step t ih =>
      intro path v
      cases t with
      | any p d =>
          rw [violations, offences, List.map_nil]
      | nullable p wrapped =>
          by_cases given : v = .null
          · rw [given, violations, offences, List.map_nil]
          · rw [violations, offences_nullable given]
            · exact ih wrapped (List.mem_singleton_self _) path v
            · exact given
      | scalar p kind d =>
          rw [violations, offences]
          split <;> rfl
      | map p items =>
          by_cases isMap : ∃ es, v = .map es
          · obtain ⟨es, rfl⟩ := isMap
            rw [violations, offences_map, List.map_flatMap]
            refine List.flatMap_congr fun e _ => ?_
            simp only [violationsUnder_eq]
            cases found : Keyed.find? e.1 items with
            | none => rfl
            | some t =>
                show t.violations (keyPath path e.1) e.2 =
                  ((t.offences e.2).map (Offence.below (.key e.1))).map (Offence.violation path)
                rw [ih t (mem_parts_of_find? found), List.map_map]
                rfl
          · rw [violations, offences_map_of_other (not_exists.mp isMap)]
            · rfl
            · exact not_exists.mp isMap
      | array p item =>
          by_cases isList : ∃ xs, v = .list xs
          · obtain ⟨xs, rfl⟩ := isList
            rw [violations, offences, List.map_flatMap]
            refine List.flatMap_congr fun x _ => ?_
            rw [ih item (List.mem_singleton_self _), List.map_map]
            rfl
          · rw [violations, offences_array_of_other (not_exists.mp isList)]
            · rfl
            · exact not_exists.mp isList
      | unruled p =>
          rw [violations, offences]
          rfl

end SchemaType

end Stencil
