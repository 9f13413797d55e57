import Stencil.Proofs.Document.Children
import Stencil.Proofs.Document.Lookup
import Stencil.Proofs.Document.Plain

/-!
# Wrapping and unwrapping undo each other

A plain value that is wrapped in nodes and unwrapped again comes back as it was,
whatever its leaves are, and all nodes that wrapping makes are marked alike.

The other way round a tree of maps and arrays with plain values at the leaves is
unwrapped first. What it loses are its marks, so wrapping its plain value gives the
tree with the marks of the wrapping; but a map that repeats a key loses an entry as
well, and does not come back. A tree that has no plain value at all is one in which
something cannot be a key.

## Main definitions

* `Value.NodeFree` — values without a node among their maps and lists.
* `Node.Nested` — trees of maps and arrays with plain values at the leaves.
* `Node.KeysDiffer`, `Node.KeysHashable` — trees in which no map repeats a key, and in which
  every key can be one.
* `Node.marked` — a tree with one mark on all its nodes.

## Main results

* `Node.mark_of_mem_ofPlain` — the nodes that wrapping makes.
* `Node.Nested.comesBack` — trees that come back.
* `wrapping_inverse` — both directions.
-/

namespace Stencil

/-! ## Plain values that are wrapped -/

namespace Value

/-- Whether wrapping leaves a value as it is: it is no map, no list and no node. -/
def isLeaf : Value → Bool
  | .map _ | .list _ | .node _ => false
  | _ => true

/-- Whether no node stands in a value, down through maps and lists. -/
inductive NodeFree : Value → Prop
  | leaf {v : Value} (leaf : v.isLeaf = true) : NodeFree v
  | map {es : List (Value × Value)} (values : ∀ e ∈ es, NodeFree e.2) : NodeFree (.map es)
  | list {xs : List Value} (items : ∀ x ∈ xs, NodeFree x) : NodeFree (.list xs)

end Value

namespace Node

theorem ofPlain_of_leaf (m : Mark) {v : Value} (leaf : v.isLeaf = true) :
    ofPlain m v = .plain v := by
  cases v with
  | map | list | node => cases leaf
  | _ => rw [ofPlain] <;> (intro _ heq; cases heq)

theorem entriesOfPlain_eq (m : Mark) (es : List (Value × Value)) :
    entriesOfPlain m es = es.map fun e => ⟨m, e.1, ofPlain m e.2⟩ := by
  induction es with
  | nil => rw [entriesOfPlain]; rfl
  | cons e es ih => rw [entriesOfPlain, ih, List.map_cons]

theorem itemsOfPlain_eq (m : Mark) (xs : List Value) :
    itemsOfPlain m xs = xs.map fun x => ⟨m, ofPlain m x⟩ := by
  induction xs with
  | nil => rw [itemsOfPlain]; rfl
  | cons x xs ih => rw [itemsOfPlain, ih, List.map_cons]

/-- **The nodes that wrapping makes** all have the one mark. -/
theorem mark_of_mem_ofPlain {m : Mark} {v : Value} (free : v.NodeFree) {x : Node}
    (mem : x ∈ (ofPlain m v).nodes) : x.mark? = some m := by
  induction free generalizing x with
  | leaf leaf =>
      rw [ofPlain_of_leaf m leaf, nodes] at mem
      cases mem
  | map _ ih =>
      rw [ofPlain, entriesOfPlain_eq] at mem
      rcases mem_nodes_map.mp mem with rfl | ⟨_, hmem, hx⟩
      · rfl
      · obtain ⟨e, he, rfl⟩ := List.mem_map.mp hmem
        rcases hx with rfl | hx
        · rfl
        · exact ih e he hx
  | list _ ih =>
      rw [ofPlain, itemsOfPlain_eq] at mem
      rcases mem_nodes_array.mp mem with rfl | ⟨_, hmem, hx⟩
      · rfl
      · obtain ⟨v, hv, rfl⟩ := List.mem_map.mp hmem
        rcases hx with rfl | hx
        · rfl
        · exact ih v hv hx

/-! ## Trees that are unwrapped -/

/-- Trees of maps and arrays with plain values at the leaves. -/
inductive Nested : Node → Prop
  | leaf {v : Value} (leaf : v.isLeaf = true) : Nested (.plain v)
  | map {m : Mark} {es : List (Entry Node)} (values : ∀ e ∈ es, Nested e.value) :
      Nested (.map m es)
  | array {m : Mark} {is : List (Held Node)} (values : ∀ i ∈ is, Nested i.value) :
      Nested (.array m is)

/-- Whether no map in a tree repeats a key. -/
def KeysDiffer (n : Node) : Prop :=
  ∀ m es, .map m es ∈ n.nodes → es.Pairwise fun a b => a.key.same b.key = false

/-- Whether every key in a tree can be one. -/
def KeysHashable (n : Node) : Prop := ∀ e, .entry e ∈ n.nodes → e.key.isHashable = true

mutual
/-- A tree with one mark on all its nodes. -/
def marked (m : Mark) : Node → Node
  | .plain v => .plain v
  | .bare _ => .bare m
  | .document d => .document (heldMarked m d)
  | .entry e => .entry (entryMarked m e)
  | .item i => .item (heldMarked m i)
  | .map _ es => .map m (entriesMarked m es)
  | .array _ is => .array m (itemsMarked m is)

/-- A held node with one mark on itself and all nodes below. -/
def heldMarked (m : Mark) : Held Node → Held Node
  | ⟨_, v⟩ => ⟨m, marked m v⟩

/-- An entry with one mark on itself and all nodes below. -/
def entryMarked (m : Mark) : Entry Node → Entry Node
  | ⟨_, k, v⟩ => ⟨m, k, marked m v⟩

/-- Entries with one mark on themselves and all nodes below. -/
def entriesMarked (m : Mark) : List (Entry Node) → List (Entry Node)
  | [] => []
  | e :: es => entryMarked m e :: entriesMarked m es

/-- Items with one mark on themselves and all nodes below. -/
def itemsMarked (m : Mark) : List (Held Node) → List (Held Node)
  | [] => []
  | i :: is => heldMarked m i :: itemsMarked m is
end

/-! ## Keys in trees -/

theorem keysDiffer_plain {v : Value} : (Node.plain v).KeysDiffer := by
  intro m es mem
  rw [nodes] at mem
  cases mem

theorem keysDiffer_map {m : Mark} {es : List (Entry Node)} :
    (Node.map m es).KeysDiffer ↔
      es.Pairwise (fun a b => a.key.same b.key = false) ∧ ∀ e ∈ es, e.value.KeysDiffer := by
  constructor
  · intro h
    exact ⟨h m es (mem_nodes_map.mpr (.inl rfl)), fun e he m' es' mem =>
      h m' es' (mem_nodes_map.mpr (.inr ⟨e, he, .inr mem⟩))⟩
  · rintro ⟨here, below⟩ m' es' mem
    rcases mem_nodes_map.mp mem with heq | ⟨e, he, heq | mem⟩
    · cases heq
      exact here
    · cases heq
    · exact below e he m' es' mem

theorem keysDiffer_array {m : Mark} {is : List (Held Node)} :
    (Node.array m is).KeysDiffer ↔ ∀ i ∈ is, i.value.KeysDiffer := by
  constructor
  · intro h i hi m' es' mem
    exact h m' es' (mem_nodes_array.mpr (.inr ⟨i, hi, .inr mem⟩))
  · intro below m' es' mem
    rcases mem_nodes_array.mp mem with heq | ⟨i, hi, heq | mem⟩
    · cases heq
    · cases heq
    · exact below i hi m' es' mem

/-- A tree of maps and arrays that has a plain value has no key that cannot be
one. -/
theorem Nested.keysHashable {n : Node} (nested : n.Nested) {v : Value} (h : n.toPlain = .ok v) :
    n.KeysHashable := by
  induction nested generalizing v with
  | leaf _ =>
      intro e mem
      rw [nodes] at mem
      cases mem
  | @map m es _ ih =>
      intro e mem
      rw [toPlain] at h
      obtain ⟨plain, hplain, -⟩ := bind_eq_ok.mp h
      have each := exists_of_forall₂ (entriesPlain_eq_ok hplain)
      rcases mem_nodes_map.mp mem with heq | ⟨e', he', heq | mem⟩
      · cases heq
      · cases heq
        obtain ⟨p, -, hashable, -⟩ := each e he'
        exact hashable
      · obtain ⟨p, -, -, hvalue⟩ := each e' he'
        exact ih e' he' hvalue e mem
  | @array m is _ ih =>
      intro e mem
      rw [toPlain] at h
      obtain ⟨plain, hplain, -⟩ := bind_eq_ok.mp h
      have each := exists_of_forall₂ (itemsPlain_eq_ok hplain)
      rcases mem_nodes_array.mp mem with heq | ⟨i, hi, heq | mem⟩
      · cases heq
      · cases heq
      · obtain ⟨p, hvalue⟩ := each i hi
        exact ih i hi hvalue e mem

/-! ## Trees that come back -/

/-- Whether a plain value that a tree has gives the tree with a mark on all its nodes
when it is wrapped, exactly if the keys in the tree differ. -/
def ComesBack (m : Mark) (n : Node) : Prop :=
  ∀ v, n.toPlain = .ok v → (ofPlain m v = n.marked m ↔ n.KeysDiffer)

/-- Entries come back if what stands under each key does. -/
theorem entriesOfPlain_iff {m : Mark} {es : List (Entry Node)} {plain : List (Value × Value)}
    (values : ∀ e ∈ es, e.value.ComesBack m)
    (each : List.Forall₂ (fun e p => e.key = p.1 ∧ e.key.isHashable = true ∧
      e.value.toPlain = .ok p.2) es plain) :
    entriesOfPlain m plain = entriesMarked m es ↔ ∀ e ∈ es, e.value.KeysDiffer := by
  induction each with
  | nil => simp [entriesOfPlain, entriesMarked]
  | @cons e p es plain one _ ih =>
      obtain ⟨hkey, -, hvalue⟩ := one
      obtain ⟨here, rest⟩ := List.forall_mem_cons.mp values
      rw [entriesOfPlain, entriesMarked, entryMarked, List.cons.injEq, ih rest, ← hkey,
        Entry.mk.injEq, here p.2 hvalue, List.forall_mem_cons]
      simp

/-- Items come back if each of them does. -/
theorem itemsOfPlain_iff {m : Mark} {is : List (Held Node)} {plain : List Value}
    (values : ∀ i ∈ is, i.value.ComesBack m)
    (each : List.Forall₂ (fun i v => i.value.toPlain = .ok v) is plain) :
    itemsOfPlain m plain = itemsMarked m is ↔ ∀ i ∈ is, i.value.KeysDiffer := by
  induction each with
  | nil => simp [itemsOfPlain, itemsMarked]
  | @cons i v is plain one _ ih =>
      obtain ⟨here, rest⟩ := List.forall_mem_cons.mp values
      rw [itemsOfPlain, itemsMarked, heldMarked, List.cons.injEq, ih rest, Held.mk.injEq,
        here v one, List.forall_mem_cons]
      simp

theorem entriesOfPlain_keys (m : Mark) (es : List (Value × Value)) :
    (entriesOfPlain m es).map (·.key) = es.map (·.1) := by
  rw [entriesOfPlain_eq, List.map_map]
  rfl

theorem entriesMarked_keys (m : Mark) (es : List (Entry Node)) :
    (entriesMarked m es).map (·.key) = es.map (·.key) := by
  induction es with
  | nil => rw [entriesMarked]
  | cons e es ih => rw [entriesMarked, List.map_cons, ih, entryMarked, List.map_cons]

/-- **A tree comes back** with the marks of the wrapping exactly if no map in it repeats
a key. The keys of a plain map differ; so if the entries of a map come back, its keys
differ, and then none of its entries was lost. -/
theorem Nested.comesBack {n : Node} (nested : n.Nested) (m : Mark) : n.ComesBack m := by
  induction nested with
  | @leaf v leaf =>
      intro w h
      rw [toPlain] at h
      cases h
      rw [ofPlain_of_leaf m leaf, marked]
      exact iff_of_true rfl keysDiffer_plain
  | @map own es _ ih =>
      intro v h
      rw [toPlain] at h
      obtain ⟨plain, hplain, heq⟩ := bind_eq_ok.mp h
      cases heq
      have each := entriesPlain_eq_ok hplain
      have keys : plain.map (·.1) = es.map (·.key) := entriesPlain_keys hplain
      have distinct_iff : Keyed.Distinct plain ↔
          es.Pairwise fun a b => a.key.same b.key = false := by
        rw [Keyed.distinct_iff_keys, keys, List.pairwise_map]
      rw [ofPlain, marked, Node.map.injEq, keysDiffer_map, ← distinct_iff]
      constructor
      · rintro ⟨-, hentries⟩
        have distinct : Keyed.Distinct plain := by
          have kept := congrArg (List.map (·.key)) hentries
          rw [entriesOfPlain_keys, entriesMarked_keys, ← keys] at kept
          rw [Keyed.distinct_iff_keys, ← kept, ← Keyed.distinct_iff_keys]
          exact Keyed.ofList_distinct plain
        rw [Keyed.ofList_of_distinct distinct] at hentries
        exact ⟨distinct, (entriesOfPlain_iff ih each).mp hentries⟩
      · rintro ⟨distinct, values⟩
        rw [Keyed.ofList_of_distinct distinct]
        exact ⟨rfl, (entriesOfPlain_iff ih each).mpr values⟩
  | @array own is _ ih =>
      intro v h
      rw [toPlain] at h
      obtain ⟨plain, hplain, heq⟩ := bind_eq_ok.mp h
      cases heq
      rw [ofPlain, marked, Node.array.injEq, keysDiffer_array,
        itemsOfPlain_iff ih (itemsPlain_eq_ok hplain)]
      simp

end Node

/-! ## Both directions -/

/-- **Wrapping and unwrapping undo each other.** A plain value comes back as it was when it is
wrapped and unwrapped, and every node that wrapping makes stands at the given place and has no
annotations. A tree of maps and arrays has a plain value exactly if its keys can be keys, and that
gives the tree back when it is wrapped, every node at the given place and without annotations,
exactly if no map in the tree repeats a key. -/
theorem wrapping_inverse (p : Position) :
    (∀ v : Value, v.WellKeyed → (Node.ofPlain (.ofPosition p) v).toPlain = .ok v) ∧
      (∀ v : Value, v.NodeFree → ∀ n ∈ (Node.ofPlain (.ofPosition p) v).nodes,
        ∃ m, n.mark? = some m ∧ m.position = p ∧ m.annotations = []) ∧
      ∀ n : Node, n.Nested →
        ((∃ v, n.toPlain = .ok v) ↔ n.KeysHashable) ∧
          ∀ v, n.toPlain = .ok v →
            (Node.ofPlain (.ofPosition p) v = n.marked (.ofPosition p) ↔ n.KeysDiffer) := by
  refine ⟨fun v => Node.toPlain_ofPlain _ v, fun v free n mem => ?_, fun n nested => ?_⟩
  · exact ⟨_, Node.mark_of_mem_ofPlain free mem, rfl, rfl⟩
  · exact ⟨⟨fun ⟨_, h⟩ => nested.keysHashable h, Node.exists_toPlain⟩, nested.comesBack _⟩

/-- A list cannot be a key. So a tree in which one is the key of a map has no plain value, though
no map in it repeats a key. -/
theorem wrapping_inverse_unhashable :
    ¬ ∀ (p : Position) (n : Node), n.Nested → n.KeysDiffer →
      ∃ v, n.toPlain = .ok v ∧ Node.ofPlain (.ofPosition p) v = n.marked (.ofPosition p) := by
  intro returns
  let p : Position := ⟨"values.yml", some 1⟩
  let e : Entry Node := ⟨.ofPosition p, .list [.str "a"], .plain (.int 1)⟩
  have nested : (Node.map (.ofPosition p) [e]).Nested :=
    .map (List.forall_mem_singleton.mpr (.leaf rfl))
  have differ : (Node.map (.ofPosition p) [e]).KeysDiffer :=
    Node.keysDiffer_map.mpr
      ⟨List.pairwise_singleton .., List.forall_mem_singleton.mpr Node.keysDiffer_plain⟩
  obtain ⟨v, plain, -⟩ := returns p _ nested differ
  have hashable : e.key.isHashable = true :=
    nested.keysHashable plain e
      (Node.mem_nodes_map.mpr (.inr ⟨e, List.mem_singleton_self e, .inl rfl⟩))
  cases hashable

/-- A map in a list, under a number, beside leaves that stay as they are; and a tree with
annotations, in which a number and its numeral are different keys. -/
theorem wrapping_inverse_nested :
    let p : Position := ⟨"new.yml", some 7⟩
    let v : Value :=
      .map [(.int 1, .list [.map [], .tuple [.list []], .bytes [0]]), (.str "1", .null)]
    let own : Mark := ⟨⟨"old.yml", some 1⟩, [("schema/nullable", ⟨[], []⟩)]⟩
    let n : Node := .map own [⟨own, .int 1, .array own [⟨own, .plain (.tuple [.null])⟩]⟩,
      ⟨own, .str "1", .plain .null⟩]
    (Node.ofPlain (.ofPosition p) v).toPlain = .ok v ∧
      (∀ x ∈ (Node.ofPlain (.ofPosition p) v).nodes,
        ∃ m, x.mark? = some m ∧ m.position = p ∧ m.annotations = []) ∧
      ∃ w, n.toPlain = .ok w ∧ Node.ofPlain (.ofPosition p) w = n.marked (.ofPosition p) := by
  intro p v own n
  obtain ⟨back, made, trees⟩ := wrapping_inverse p
  have wellKeyed : v.WellKeyed := by
    simp only [v, Value.WellKeyed, Value.EntriesWellKeyed, Value.ItemsWellKeyed, Keyed.Distinct]
    decide +kernel
  have items : (Value.list [.map [], .tuple [.list []], .bytes [0]]).NodeFree := by
    refine .list ?_
    simp only [List.forall_mem_cons]
    exact ⟨.map (List.forall_mem_nil _), .leaf rfl, .leaf rfl, List.forall_mem_nil _⟩
  have free : v.NodeFree :=
    .map (List.forall_mem_cons.mpr ⟨items, List.forall_mem_singleton.mpr (.leaf rfl)⟩)
  have nested : n.Nested :=
    .map (List.forall_mem_cons.mpr
      ⟨.array (List.forall_mem_singleton.mpr (.leaf rfl)),
        List.forall_mem_singleton.mpr (.leaf rfl)⟩)
  have differ : n.KeysDiffer := by
    refine Node.keysDiffer_map.mpr ⟨?_, List.forall_mem_cons.mpr
      ⟨Node.keysDiffer_array.mpr (List.forall_mem_singleton.mpr Node.keysDiffer_plain),
        List.forall_mem_singleton.mpr Node.keysDiffer_plain⟩⟩
    simp only [List.pairwise_pair]
    decide +kernel
  have hashable : n.KeysHashable := by
    intro e mem
    simp only [n, Node.nodes, Node.entriesNodes, Node.entryNodes, Node.itemsNodes, Node.heldNodes,
      List.append_nil, List.cons_append, List.nil_append, List.mem_cons, reduceCtorEq,
      Node.entry.injEq, List.not_mem_nil, or_false, false_or] at mem
    rcases mem with rfl | rfl <;> rfl
  obtain ⟨w, hw⟩ := (trees n nested).1.mpr hashable
  exact ⟨back v wellKeyed, made v free, w, hw, ((trees n nested).2 w hw).mpr differ⟩

end Stencil
