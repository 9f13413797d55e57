import Stencil.Document.Plain
import Stencil.Document.Walk

/-!
# Trees and what stands directly below their nodes

Maps have entries, arrays have items, and documents, entries and items hold
one value; to say something of all nodes it is often enough to know which
values stand directly below each. What holds of a node if it holds of the
values directly below it holds of every node, and the nodes of a tree are its
root and the nodes of those values.

## Main definitions

* `Node.held?` — the value that a document, an entry or an item holds.

## Main results

* `Node.childInduction` — induction by the values directly below.
* `Node.nodes_eq`, `Node.mem_nodes` — the nodes of a tree by those of the
  values directly below its root.
* `Node.mem_nodes_map`, `Node.mem_nodes_array` — the nodes of maps and arrays.
-/

namespace Stencil

namespace Node

/-! ## Induction -/

variable {P : Node → Prop}

mutual
/-- What holds of a node if it holds of the values directly below holds of
every node. -/
theorem childInduction (step : ∀ n : Node, (∀ c ∈ n.children, P c) → P n) : (n : Node) → P n
  | .plain v => step (.plain v) nofun
  | .bare m => step (.bare m) nofun
  | .document ⟨m, v⟩ =>
    step (.document ⟨m, v⟩) (List.forall_mem_singleton.mpr (childInduction step v))
  | .entry ⟨m, k, v⟩ =>
    step (.entry ⟨m, k, v⟩) (List.forall_mem_singleton.mpr (childInduction step v))
  | .item ⟨m, v⟩ => step (.item ⟨m, v⟩) (List.forall_mem_singleton.mpr (childInduction step v))
  | .map m es => step (.map m es) (List.forall_mem_map.mpr (childInduction_entries step es))
  | .array m is => step (.array m is) (List.forall_mem_map.mpr (childInduction_items step is))

theorem childInduction_entries (step : ∀ n : Node, (∀ c ∈ n.children, P c) → P n) :
    (es : List (Entry Node)) → ∀ e ∈ es, P (.entry e)
  | [] => nofun
  | ⟨_, _, v⟩ :: es =>
    List.forall_mem_cons.mpr
      ⟨step _ (List.forall_mem_singleton.mpr (childInduction step v)),
        childInduction_entries step es⟩

theorem childInduction_items (step : ∀ n : Node, (∀ c ∈ n.children, P c) → P n) :
    (is : List (Held Node)) → ∀ i ∈ is, P (.item i)
  | [] => nofun
  | ⟨_, v⟩ :: is =>
    List.forall_mem_cons.mpr
      ⟨step _ (List.forall_mem_singleton.mpr (childInduction step v)),
        childInduction_items step is⟩
end

/-! ## Nodes -/

theorem heldNodes_eq (i : Held Node) : heldNodes i = i.value.nodes := by rw [heldNodes]

theorem entryNodes_eq (e : Entry Node) : entryNodes e = e.value.nodes := by rw [entryNodes]

theorem entriesNodes_eq (es : List (Entry Node)) :
    entriesNodes es = (es.map Node.entry).flatMap nodes := by
  induction es with
  | nil => rw [entriesNodes]; rfl
  | cons e es ih => rw [entriesNodes, ih, List.map_cons, List.flatMap_cons, nodes]

theorem itemsNodes_eq (is : List (Held Node)) :
    itemsNodes is = (is.map Node.item).flatMap nodes := by
  induction is with
  | nil => rw [itemsNodes]; rfl
  | cons i is ih => rw [itemsNodes, ih, List.map_cons, List.flatMap_cons, nodes]

/-- The nodes of a tree are its root, unless that is a plain value, and the
nodes of the values below. -/
theorem nodes_eq (n : Node) :
    n.nodes = (n.mark?.map fun _ => n).toList ++ n.children.flatMap nodes := by
  cases n with
  | plain v => rw [nodes]; rfl
  | bare m => rw [nodes]; rfl
  | document d => rw [nodes, heldNodes]; simp [mark?, children]
  | entry e => rw [nodes, entryNodes]; simp [mark?, children]
  | item i => rw [nodes, heldNodes]; simp [mark?, children]
  | map m es => rw [nodes, entriesNodes_eq]; rfl
  | array m is => rw [nodes, itemsNodes_eq]; rfl

theorem mem_nodes {n x : Node} :
    x ∈ n.nodes ↔ (n.mark?.isSome = true ∧ x = n) ∨ ∃ c ∈ n.children, x ∈ c.nodes := by
  rw [nodes_eq, List.mem_append, List.mem_flatMap]
  cases n.mark? <;> simp

theorem mem_nodes_map {m : Mark} {es : List (Entry Node)} {x : Node} :
    x ∈ (Node.map m es).nodes ↔
      x = .map m es ∨ ∃ e ∈ es, x = .entry e ∨ x ∈ e.value.nodes := by
  rw [nodes, entriesNodes_eq, List.mem_cons, List.flatMap_map, List.mem_flatMap]
  simp only [nodes, entryNodes_eq, List.mem_cons]

theorem mem_nodes_array {m : Mark} {is : List (Held Node)} {x : Node} :
    x ∈ (Node.array m is).nodes ↔
      x = .array m is ∨ ∃ i ∈ is, x = .item i ∨ x ∈ i.value.nodes := by
  rw [nodes, itemsNodes_eq, List.mem_cons, List.flatMap_map, List.mem_flatMap]
  simp only [nodes, heldNodes_eq, List.mem_cons]

/-! ## Nodes that hold a value -/

/-- The value that a document, an entry or an item holds. -/
def held? : Node → Option Node
  | .document d => some d.value
  | .entry e => some e.value
  | .item i => some i.value
  | _ => none

theorem children_of_held {n c : Node} (h : n.held? = some c) : n.children = [c] := by
  cases n <;> cases h <;> rfl

theorem toPlain_of_held {n c : Node} (h : n.held? = some c) : n.toPlain = c.toPlain := by
  cases n <;> cases h
  case document d => rw [toPlain, heldPlain]
  case entry e => rw [toPlain, entryPlain]
  case item i => rw [toPlain, heldPlain]

end Node

end Stencil
