import Stencil.Proofs.Document.Children

/-!
# Addresses in a document tree

What stands in a tree has an address: the numbers of the children that lead to
it from the root. Two nodes may look alike, but they never have one address. An
address comes before those that lead on from it, and the addresses through one
child come before those through a later one; this is the lexicographic order of
lists, and it is the order in which the nodes of a tree are visited.

## Main definitions

* `Node.at?`, `Node.among?` — what stands at an address, in a tree or among
  several.
* `Node.Walk` — the nodes at some addresses in order, each once.

## Main results

* `Node.exists_walk`, `Node.exists_walk_among` — visiting the nodes of a tree,
  or of several, is such a walk.
* `Node.Walk.find?_least`, `Node.Walk.find?_none` — searching the nodes of a
  walk finds the one at the least address.
-/

namespace Stencil.Node

/-- The value at an address in a tree, which is reached from the root through
the children of these numbers. -/
def at? (n : Node) : List Nat → Option Node
  | [] => some n
  | i :: a => n.children[i]?.bind fun c => c.at? a

/-- The value at an address among some trees: the number of a tree, and an
address in it. -/
def among? (ns : List Node) : List Nat → Option Node
  | [] => none
  | i :: a => ns[i]?.bind fun n => n.at? a

theorem at?_cons (n : Node) (i : Nat) (a : List Nat) :
    n.at? (i :: a) = among? n.children (i :: a) := rfl

/-- The nodes at addresses, in the order of the addresses and each of them once.
Plain values have addresses too, but they are no nodes. -/
structure Walk (reach : List Nat → Option Node) (places : List (List Nat × Node)) : Prop where
  ordered : places.Pairwise fun p q => p.1 < q.1
  mem_iff (a : List Nat) (n : Node) :
    (a, n) ∈ places ↔ reach a = some n ∧ n.mark?.isSome = true

/-! ## Several trees -/

/-- An address among trees, if one more tree comes before them. -/
def later : List Nat → List Nat
  | [] => []
  | i :: a => (i + 1) :: a

theorem among?_later (n : Node) (ns : List Node) (a : List Nat) :
    among? (n :: ns) (later a) = among? ns a := by
  cases a <;> rfl

theorem later_lt {a b : List Nat} (h : a < b) : later a < later b := by
  cases a with
  | nil =>
      cases b with
      | nil => exact h
      | cons j b => exact List.nil_lt_cons _ _
  | cons i a =>
      cases b with
      | nil => cases h
      | cons j b => simpa [later, List.cons_lt_cons_iff] using h

namespace Walk

variable {n : Node} {ns : List Node} {reach : List Nat → Option Node}
  {places others : List (List Nat × Node)}

/-- No trees have no nodes. -/
protected theorem nil : Walk (among? []) [] where
  ordered := .nil
  mem_iff a n := by cases a <;> simp [among?]

/-- The nodes of a tree come before those of the trees after it. -/
protected theorem cons (first : Walk n.at? places) (rest : Walk (among? ns) others) :
    Walk (among? (n :: ns))
      (places.map (fun p => (0 :: p.1, p.2)) ++ others.map fun p => (later p.1, p.2)) where
  ordered := by
    rw [List.pairwise_append, List.pairwise_map, List.pairwise_map]
    refine ⟨?_, rest.ordered.imp later_lt, ?_⟩
    · exact first.ordered.imp fun h => List.cons_lt_cons_iff.mpr (.inr ⟨rfl, h⟩)
    -- Addresses in the trees after the first one start with a number above 0.
    · simp only [List.forall_mem_map]
      intro p _ q hq
      obtain ⟨_ | ⟨i, a⟩, x⟩ := q
      · cases ((rest.mem_iff [] x).mp hq).1
      · exact List.cons_lt_cons_iff.mpr (.inl i.succ_pos)
  mem_iff a x := by
    simp only [List.mem_append, List.mem_map, Prod.exists, Prod.mk.injEq, first.mem_iff,
      rest.mem_iff]
    constructor
    · rintro (⟨b, y, here, rfl, rfl⟩ | ⟨b, y, here, rfl, rfl⟩)
      · exact here
      · rwa [among?_later]
    · intro here
      match a with
      | [] => cases here.1
      | 0 :: b => exact .inl ⟨b, x, here, rfl, rfl⟩
      | (i + 1) :: b => exact .inr ⟨i :: b, x, here, rfl, rfl⟩

/-- The nodes of a tree are its root, unless that is a plain value, and the
nodes below. -/
protected theorem node (below : Walk (among? n.children) places) :
    Walk n.at? ((n.mark?.map fun _ => ([], n)).toList ++ places) where
  ordered := by
    refine List.pairwise_append.mpr ⟨by cases n.mark? <;> simp, below.ordered, ?_⟩
    intro p hp q hq
    obtain ⟨_ | ⟨i, a⟩, x⟩ := q
    · cases ((below.mem_iff [] x).mp hq).1
    · obtain ⟨-, -, rfl⟩ := Option.map_eq_some_iff.mp (Option.mem_toList.mp hp)
      exact List.nil_lt_cons _ _
  mem_iff a x := by
    rw [List.mem_append, below.mem_iff]
    cases a with
    | nil =>
        constructor
        · rintro (root | ⟨none, -⟩)
          · obtain ⟨m, mark, heq⟩ := Option.map_eq_some_iff.mp (Option.mem_toList.mp root)
            cases heq
            exact ⟨rfl, Option.isSome_of_eq_some mark⟩
          · cases none
        · rintro ⟨here, mark⟩
          cases here
          obtain ⟨m, mark⟩ := Option.isSome_iff_exists.mp mark
          exact .inl (by simp [mark])
    | cons i a => cases n.mark? <;> simp [at?_cons]

/-- Searching the nodes of a walk finds the one at the least address. -/
theorem find?_least {p : Node → Bool} (walk : Walk reach places)
    (found : (places.map (·.2)).find? p = some n) :
    ∃ a, reach a = some n ∧
      ∀ b x, reach b = some x → x.mark?.isSome = true → p x = true → ¬ b < a := by
  rw [List.find?_map, Option.map_eq_some_iff] at found
  obtain ⟨⟨a, x⟩, found, rfl⟩ := found
  obtain ⟨-, before, after, rfl, none⟩ := List.find?_eq_some_iff_append.mp found
  refine ⟨a, ((walk.mem_iff a x).mp (List.mem_append_right _ (List.mem_cons_self ..))).1, ?_⟩
  intro b y there mark hp
  -- What stands before the node found does not pass, and what stands after it has a
  -- greater address.
  rcases List.mem_append.mp ((walk.mem_iff b y).mpr ⟨there, mark⟩) with hb | hb
  · simpa [hp] using none _ hb
  · rcases List.mem_cons.mp hb with heq | hb
    · cases heq
      exact List.lt_irrefl _
    · have after := (List.pairwise_append.mp walk.ordered).2.1
      exact List.lt_asymm (List.rel_of_pairwise_cons after hb)

/-- What is not found among the nodes of a walk has no address. -/
theorem find?_none {p : Node → Bool} (walk : Walk reach places)
    (none : (places.map (·.2)).find? p = none) {a : List Nat} {x : Node}
    (there : reach a = some x) (mark : x.mark?.isSome = true) : p x = false := by
  rw [List.find?_eq_none] at none
  have mem := List.mem_map_of_mem (f := (·.2)) ((walk.mem_iff a x).mpr ⟨there, mark⟩)
  simpa using none x mem

end Walk

/-! ## Visiting the nodes of a tree -/

/-- Walks through trees one after another. -/
private theorem exists_walk_of_forall {ns : List Node}
    (each : ∀ n ∈ ns, ∃ places, Walk n.at? places ∧ places.map (·.2) = n.nodes) :
    ∃ places, Walk (among? ns) places ∧ places.map (·.2) = ns.flatMap nodes := by
  induction ns with
  | nil => exact ⟨[], .nil, rfl⟩
  | cons n ns ih =>
      obtain ⟨places, first, hfirst⟩ := each n (List.mem_cons_self ..)
      obtain ⟨others, rest, hrest⟩ := ih fun m hm => each m (List.mem_cons_of_mem _ hm)
      refine ⟨_, first.cons rest, ?_⟩
      rw [List.map_append, List.map_map, List.map_map, List.flatMap_cons, ← hfirst, ← hrest]
      rfl

/-- **Visiting the nodes of a tree** is a walk: it comes to every node once, in
the order of the addresses. -/
theorem exists_walk (n : Node) : ∃ places, Walk n.at? places ∧ places.map (·.2) = n.nodes := by
  induction n using childInduction with
  | step n ih =>
      obtain ⟨places, below, hbelow⟩ := exists_walk_of_forall ih
      refine ⟨_, below.node, ?_⟩
      rw [List.map_append, hbelow, nodes_eq]
      cases n.mark? <;> rfl

/-- **Visiting the nodes of some trees**, one tree after another, is a walk. -/
theorem exists_walk_among (ns : List Node) :
    ∃ places, Walk (among? ns) places ∧ places.map (·.2) = ns.flatMap nodes :=
  exists_walk_of_forall fun n _ => n.exists_walk

end Stencil.Node
