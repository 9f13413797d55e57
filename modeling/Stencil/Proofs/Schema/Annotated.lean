import Stencil.Proofs.Schema.Overriding
import Stencil.Proofs.Text.Named
import Mathlib.Logic.Basic

/-!
# Nodes with other annotations

What stands below a node does not depend on the annotations on the node. Of
these only two have a part in its type, and of each of them the one that is
found under its name; nodes that differ in other annotations, or in the order
in which annotations with different names are written, are decided alike.

## Main definitions

* `Node.withAnnotations`, `Node.without` — a node with other annotations, and
  without the annotation of a name.
* `Override.names` — the names of the annotations that decide a type.

## Main results

* `Node.resolveType_congr` — what has a part in deciding a type.
* `Node.resolveType_of_perm` — what has none.
-/

namespace Stencil

/-- The names of the annotations that decide a type. -/
def Override.names : List Text := [AnnotationName.schemaType, AnnotationName.schemaNullable]

namespace Node

/-- The annotations on a node. -/
def annotations (n : Node) : List (Text × Annotation) :=
  match n.mark? with
  | some m => m.annotations
  | none => []

/-- A node with other annotations on it. There are none on plain values. -/
def withAnnotations (as : List (Text × Annotation)) : Node → Node
  | .plain v => .plain v
  | .bare m => .bare ⟨m.position, as⟩
  | .document d => .document ⟨⟨d.mark.position, as⟩, d.value⟩
  | .entry e => .entry ⟨⟨e.mark.position, as⟩, e.key, e.value⟩
  | .item i => .item ⟨⟨i.mark.position, as⟩, i.value⟩
  | .map m es => .map ⟨m.position, as⟩ es
  | .array m is => .array ⟨m.position, as⟩ is

/-- A node without the annotation of a name. -/
def without (name : Text) (n : Node) : Node :=
  n.withAnnotations (n.annotations.filter fun a => a.1 ≠ name)

variable (as : List (Text × Annotation)) (n : Node)

/-! ## What stays -/

@[simp]
theorem position_withAnnotations : (n.withAnnotations as).position = n.position := by
  cases n <;> rfl

@[simp]
theorem children_withAnnotations : (n.withAnnotations as).children = n.children := by
  cases n <;> rfl

@[simp]
theorem firstType_withAnnotations : (n.withAnnotations as).firstType = n.firstType := by
  rw [firstType, firstType, children_withAnnotations, position_withAnnotations]

/-- A node that is not bare has the same value under other annotations; a bare
node is its own value, with its annotations. -/
theorem valueType_withAnnotations {n : Node} (h : ∀ m, n ≠ .bare m) (p : Position) :
    (n.withAnnotations as).valueType p = n.valueType p := by
  cases n with
  | bare m => exact absurd rfl (h m)
  | array m is => cases is <;> rfl
  | _ => rfl

/-! ## What is found -/

theorem annotation?_withAnnotations (name : Text) :
    (n.withAnnotations as).annotation? name = n.mark?.bind fun _ => as.lookup name := by
  cases n <;> rfl

theorem annotation?_without_self (name : Text) : (n.without name).annotation? name = none := by
  have absent : (n.annotations.filter fun a => a.1 ≠ name).lookup name = none := by
    rw [List.lookup_eq_none_iff]
    intro a ha
    rw [bne_iff_ne]
    exact (of_decide_eq_true (List.mem_filter.mp ha).2).symm
  rw [without, annotation?_withAnnotations, absent]
  cases n.mark? <;> rfl

theorem annotation?_without_of_ne {name other : Text} (h : other ≠ name) :
    (n.without name).annotation? other = n.annotation? other := by
  have found : (n.annotations.filter fun a => a.1 ≠ name).lookup other =
      n.annotations.lookup other :=
    Named.lookup_filter (p := fun n => decide (n ≠ name)) (decide_eq_true h) n.annotations
  rw [without, annotation?_withAnnotations, found, annotation?, annotations]
  cases n.mark? <;> rfl

/-! ## What has a part in deciding a type -/

/-- Nodes on which the same two annotations are found are decided alike, if
they are in one place and have the same first value. -/
theorem resolveType_congr {n n' : Node} (place : n.position = n'.position)
    (first : n.firstType = n'.firstType)
    (found : ∀ name ∈ Override.names, n.annotation? name = n'.annotation? name) :
    n.resolveType = n'.resolveType := by
  obtain ⟨type, nullable, -⟩ := List.forall_mem_cons.mp found |>.imp_right List.forall_mem_cons.mp
  rw [resolveType_eq, resolveType_eq, overrides_eq, overrides_eq, place, first, type, nullable]

/-- **Neither the order of annotations nor other annotations** have a part in
deciding a type. -/
theorem resolveType_of_perm {as bs : List (Text × Annotation)} (differ : (as.map (·.1)).Nodup)
    (perm : (as.filter fun a => a.1 ∈ Override.names).Perm
      (bs.filter fun b => b.1 ∈ Override.names)) :
    (n.withAnnotations as).resolveType = (n.withAnnotations bs).resolveType := by
  refine resolveType_congr (by simp) (by simp) fun name mem => ?_
  have picked (cs : List (Text × Annotation)) :
      (cs.filter fun c => c.1 ∈ Override.names).lookup name = cs.lookup name :=
    Named.lookup_filter (p := fun name => decide (name ∈ Override.names)) (decide_eq_true mem) cs
  have names : ((as.filter fun a => a.1 ∈ Override.names).map (·.1)).Nodup :=
    differ.sublist (List.filter_sublist.map _)
  have same : as.lookup name = bs.lookup name := by
    rw [← picked as, ← picked bs]
    exact Named.lookup_of_perm perm names name
  rw [annotation?_withAnnotations, annotation?_withAnnotations, same]

end Node

end Stencil
