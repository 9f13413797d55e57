import Stencil.Proofs.Document.Addresses

/-!
# Documents with an annotation

Documents are split by an annotation into those that carry it and the rest, in
order. The annotation may not stand further down: if it does anywhere, there is
no splitting, whatever the documents themselves carry, and the diagnostic is
about the node at the least address below the documents that carries it.

## Main definitions

* `Documents.Misplaced` — an annotation stands at an address below some
  documents.
* `Documents.FirstMisplaced` — it stands at no lesser one.

## Main results

* `Documents.firstMisplaced_spec`, `Documents.firstMisplaced_eq_none` — what
  searching the nodes below some documents finds.
* `Documents.split_outcome` — how documents are split.
-/

namespace Stencil

theorem Node.isSome_of_carries {n : Node} {name : Text} (h : n.carries name = true) :
    n.mark?.isSome = true := by
  unfold Node.carries at h
  cases hm : n.mark? with
  | none => rw [hm] at h; cases h
  | some m => rfl

namespace Documents

variable {name : Text} {docs : List Document}

/-- Whether a node below some documents carries an annotation. Its address is
the number of the document, and an address in the document's value. -/
def Misplaced (name : Text) (docs : List Document) (a : List Nat) (n : Node) : Prop :=
  Node.among? (docs.map (·.value)) a = some n ∧ n.carries name = true

/-- Whether a node is the one at the least address that carries an annotation
below some documents. -/
def FirstMisplaced (name : Text) (docs : List Document) (n : Node) : Prop :=
  ∃ a, Misplaced name docs a n ∧ ∀ b x, Misplaced name docs b x → ¬ b < a

/-- Visiting the nodes below some documents is a walk. -/
private theorem exists_walk_below (docs : List Document) :
    ∃ places, Node.Walk (Node.among? (docs.map (·.value))) places ∧
      places.map (·.2) = docs.flatMap fun d => d.value.nodes := by
  obtain ⟨places, walk, hplaces⟩ := Node.exists_walk_among (docs.map (·.value))
  exact ⟨places, walk, hplaces.trans (List.flatMap_map ..)⟩

/-- **The first misplaced annotation** is the one at the least address. -/
theorem firstMisplaced_spec {n : Node} (h : firstMisplaced name docs = some n) :
    FirstMisplaced name docs n := by
  obtain ⟨places, walk, hplaces⟩ := exists_walk_below docs
  have carries : n.carries name = true := List.find?_some h
  rw [firstMisplaced, ← hplaces] at h
  obtain ⟨a, here, least⟩ := walk.find?_least h
  exact ⟨a, ⟨here, carries⟩, fun b x there =>
    least b x there.1 (Node.isSome_of_carries there.2) there.2⟩

/-- If no misplaced annotation is found, there is none at any address. -/
theorem firstMisplaced_eq_none (h : firstMisplaced name docs = none) (a : List Nat) (n : Node) :
    ¬ Misplaced name docs a n := by
  obtain ⟨places, walk, hplaces⟩ := exists_walk_below docs
  rw [firstMisplaced, ← hplaces] at h
  rintro ⟨there, carries⟩
  rw [walk.find?_none h there (Node.isSome_of_carries carries)] at carries
  cases carries

/-- Splitting documents by an annotation fails at the first node further down
that carries it, and otherwise tells the documents that carry it from the
rest. -/
theorem split_eq (name : Text) (docs : List Document) :
    split name docs =
      match firstMisplaced name docs with
      | some n => Error.throw (.annotationSyntax (misplaced name n))
      | none => .ok (docs.filter (·.mark.carries name), docs.filter fun d => !d.mark.carries name) := by
  unfold split splitBy
  rw [List.map_id]
  cases firstMisplaced name docs with
  | some n => rfl
  | none => simp only [List.partition_eq_filter_filter]; rfl

end Documents

end Stencil
