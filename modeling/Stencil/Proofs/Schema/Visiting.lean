import Mathlib.Logic.Relation
import Stencil.Proofs.Schema.Overriding

/-!
# Where a schema looks

Which values are looked at when the type of a node is built depends on what
its annotations decide. If they decide nothing, a map looks at all of its
entries, and an array at its first item; an annotation that lets a node be
null looks at the first value below it. What is not looked at has no part in
the schema, and neither have the annotations that stand there.

What is looked at is what is reached by one relation between a node and the
values directly below it. A schema can only be built if no annotation that is
reached is refused; but an annotation that is not reached may say what it
likes.

## Main definitions

* `Node.Visits`, `Node.Reaches` — what building the type of a node looks at.
* `Node.Skips` — what it does not look at.

## Main results

* `Node.Reaches.typed` — whatever is looked at has a type, if the whole has.
* `Node.reached_or_skipped` — every node is looked at, or lies below something
  that is skipped.
* `annotations_checked` — which annotations are checked when a schema is
  built.
-/

namespace Stencil

namespace Node

/-! ## What is looked at -/

/-- What building the type of a node looks at directly: the first value below
if the node may be null, and what describes the node if its annotations decide
nothing. -/
inductive Visits (n c : Node) : Prop
  | wrapped (nullable : n.carries AnnotationName.schemaNullable = true)
      (first : n.children.head? = some c)
  | described (undecided : n.resolveType = .ok none) (mem : c ∈ n.described)

/-- What building the type of a node looks at. -/
def Reaches : Node → Node → Prop := Relation.ReflTransGen Visits

/-- What building the type of a node does not look at: if its annotations
decide the type, every value below except the first one of a node that may be
null; and else the later items of an array. -/
inductive Skips (n c : Node) : Prop
  | decided {t : SchemaType} (decided : n.resolveType = .ok (some t)) (mem : c ∈ n.children)
      (apart : n.carries AnnotationName.schemaNullable = true → c ∈ n.children.tail)
  | later {m : Mark} {is : List (Held Node)} (array : n = .array m is)
      (undecided : n.resolveType = .ok none) (mem : c ∈ n.children.tail)

/-- Of a node whose annotations can be read, every value below is looked at or
skipped. -/
theorem visits_or_skips {n c : Node} {r : Option SchemaType} (h : n.resolveType = .ok r)
    (mem : c ∈ n.children) : n.Visits c ∨ n.Skips c := by
  have first_or_later : n.children.head? = some c ∨ c ∈ n.children.tail := by
    cases hchildren : n.children with
    | nil => rw [hchildren] at mem; cases mem
    | cons first rest =>
        rw [hchildren] at mem
        exact (List.mem_cons.mp mem).imp (fun hc => by rw [hc]; rfl) id
  cases r with
  | none =>
      cases n with
      | array m is =>
          rcases first_or_later with hfirst | hlater
          · have htake : c ∈ (Node.array m is).children.take 1 := by
              rw [List.take_one, hfirst]
              exact List.mem_singleton.mpr rfl
            exact .inl (.described h htake)
          · exact .inr (.later rfl h hlater)
      | _ => exact .inl (.described h mem)
  | some t =>
      cases hnullable : n.carries AnnotationName.schemaNullable with
      | false => exact .inr (.decided h mem (by rw [hnullable]; nofun))
      | true =>
          rcases first_or_later with hfirst | hlater
          · exact .inl (.wrapped hnullable hfirst)
          · exact .inr (.decided h mem fun _ => hlater)

/-- What is looked at stands below. -/
theorem Visits.mem_children {n c : Node} (h : n.Visits c) : c ∈ n.children := by
  cases h with
  | wrapped _ first => exact List.mem_of_head? first
  | described _ mem => exact n.described_subset mem

/-- What is looked at is a node of the tree, unless it is a plain value. -/
theorem Reaches.mem_nodes {n x : Node} (h : n.Reaches x) (marked : x.mark?.isSome = true) :
    x ∈ n.nodes := by
  induction h using Relation.ReflTransGen.head_induction_on with
  | refl => exact Node.mem_nodes.mpr (.inl ⟨marked, rfl⟩)
  | head visits _ ih => exact Node.mem_nodes.mpr (.inr ⟨_, visits.mem_children, ih⟩)

/-! ## If a schema can be built -/

theorem resolved_of_typed {p : Position} {n : Node} {t : SchemaType} (h : inferType p n = .ok t) :
    ∃ r, n.resolveType = .ok r := by
  rcases inferType_eq_ok.mp h with ⟨u, hresolved, -⟩ | ⟨hresolved, -⟩
  · exact ⟨some u, hresolved⟩
  · exact ⟨none, hresolved⟩

/-- What is looked at has a type, if the node has. -/
theorem Visits.typed {p : Position} {n c : Node} {t : SchemaType} (visits : n.Visits c)
    (h : inferType p n = .ok t) : ∃ u, inferType n.position c = .ok u := by
  cases visits with
  | wrapped nullable first =>
      obtain ⟨r, hr⟩ := resolved_of_typed h
      exact (resolveType_eq_ok hr).2 nullable c first
  | described undecided mem =>
      rcases inferType_eq_ok.mp h with ⟨u, hdecided, -⟩ | ⟨-, hvalue⟩
      · rw [undecided] at hdecided
        cases hdecided
      · exact valueType_eq_ok hvalue c mem

/-- **Whatever is looked at has a type**, if the whole has. -/
theorem Reaches.typed {p : Position} {n x : Node} {t : SchemaType} (reaches : n.Reaches x)
    (h : inferType p n = .ok t) : ∃ q u, inferType q x = .ok u := by
  induction reaches with
  | refl => exact ⟨p, t, h⟩
  | tail _ visits ih =>
      obtain ⟨q, u, hu⟩ := ih
      exact ⟨_, visits.typed hu⟩

/-- A node that has a type has no annotation that is refused. -/
theorem not_malformed_of_typed {p : Position} {n : Node} {t : SchemaType}
    (h : inferType p n = .ok t) : ¬ n.Malformed := by
  obtain ⟨r, hr⟩ := resolved_of_typed h
  exact (resolveType_eq_ok hr).1

/-- **Every node is looked at or lies below something that is skipped**, if the
whole has a type. -/
theorem reached_or_skipped (n : Node) : ∀ {p : Position} {t : SchemaType}, inferType p n = .ok t →
    ∀ x ∈ n.nodes, n.Reaches x ∨ ∃ a c, n.Reaches a ∧ a.Skips c ∧ x ∈ c.nodes := by
  induction n using childInduction with
  | step n ih =>
      intro p t h x hx
      rcases mem_nodes.mp hx with ⟨-, rfl⟩ | ⟨c, hc, hx⟩
      · exact .inl .refl
      · obtain ⟨r, hr⟩ := resolved_of_typed h
        rcases visits_or_skips hr hc with visits | skips
        · obtain ⟨u, hu⟩ := visits.typed h
          rcases ih c hc hu x hx with hreached | ⟨a, b, ha, hskips, hx⟩
          · exact .inl (.head visits hreached)
          · exact .inr ⟨a, b, .head visits ha, hskips, hx⟩
        · exact .inr ⟨n, c, .refl, skips, hx⟩

/-! ## If no schema can be built -/

/-- **What is to blame is looked at**: if there is no type, and that is not a
fault, an annotation that is reached is refused. -/
theorem exists_rejects (n : Node) : ∀ {p : Position} {e : Error} {cause : Option Fault},
    inferType p n = .error (.error e cause) →
      ∃ x, n.Reaches x ∧ x.Rejects (.error e cause) := by
  induction n using childInduction with
  | step n ih =>
      intro p e cause h
      have of_visits : ∀ c, n.Visits c → inferType n.position c = .error (.error e cause) →
          ∃ x, n.Reaches x ∧ x.Rejects (.error e cause) := by
        intro c visits hc
        obtain ⟨x, hx, hrejects⟩ := ih c visits.mem_children hc
        exact ⟨x, .head visits hx, hrejects⟩
      have not_fault : ∀ {α : Type} {r : Except Failure α}, OnlyFaults r →
          r ≠ .error (.error e cause) := by
        intro α r only hr
        obtain ⟨f, hf⟩ := only _ hr
        cases hf
      rcases inferType_eq_error h with hresolve | hdeclared | ⟨undecided, hvalue⟩
      · rcases resolveType_eq_error hresolve with hrejects | ⟨nullable, c, first, hc⟩
        · exact ⟨n, .refl, hrejects⟩
        · exact of_visits c (.wrapped nullable first) hc
      · exact absurd hdeclared (not_fault n.declared_onlyFaults)
      · rcases valueType_eq_error hvalue with ⟨c, mem, hc⟩ | ⟨entry, -, hkey⟩
        · exact of_visits c (.described undecided mem) hc
        · exact absurd hkey (not_fault (checkedKey_onlyFaults _))

end Node

/-! ## Schemas -/

/-- **Which annotations are checked** when a schema is built of a document. If
a node that is looked at carries an annotation that is refused, no schema is
built; and if no schema is built, except for a key that cannot be one, then
for such an annotation. But annotations are not checked at every node: those
on the nodes below what is skipped, the later items of an array and what lies
below a decided type, are not looked at, and a schema is built in spite of
what they say. -/
theorem annotations_checked (d : Document) :
    (∀ n, (Node.document d).Reaches n → n.Malformed →
        ∃ x, DocumentSchema.ofDocument d = .error x) ∧
      (∀ e cause, DocumentSchema.ofDocument d = .error (.error e cause) →
        ∃ n, (Node.document d).Reaches n ∧ n.Rejects (.error e cause)) ∧
      ∀ s, DocumentSchema.ofDocument d = .ok s → ∀ n ∈ (Node.document d).nodes, n.Malformed →
        ¬ (Node.document d).Reaches n ∧
          ∃ a c, (Node.document d).Reaches a ∧ a.Skips c ∧ n ∈ c.nodes := by
  have made : DocumentSchema.ofDocument d =
      (Node.inferType .unknown (.document d) >>= fun t => .ok ⟨d, t⟩) := by
    rw [Node.inferType]
    rfl
  have well_formed : ∀ {s n}, DocumentSchema.ofDocument d = .ok s →
      (Node.document d).Reaches n → ¬ n.Malformed := by
    intro s n h reaches
    rw [made] at h
    obtain ⟨t, ht, -⟩ := bind_eq_ok.mp h
    obtain ⟨q, u, hu⟩ := reaches.typed ht
    exact Node.not_malformed_of_typed hu
  refine ⟨?_, ?_, ?_⟩
  · intro n reaches malformed
    cases h : DocumentSchema.ofDocument d with
    | error x => exact ⟨x, rfl⟩
    | ok s => exact absurd malformed (well_formed h reaches)
  · intro e cause h
    rw [made] at h
    rcases bind_eq_error.mp h with h | ⟨_, _, h⟩
    · exact Node.exists_rejects _ h
    · cases h
  · intro s h n hn malformed
    have unreached : ¬ (Node.document d).Reaches n := fun reaches => well_formed h reaches malformed
    rw [made] at h
    obtain ⟨t, ht, -⟩ := bind_eq_ok.mp h
    exact ⟨unreached, (Node.reached_or_skipped _ ht n hn).resolve_left unreached⟩

/-- A map that may be null, whose second entry has an annotation with a keyword
that is not understood: the map has the type of its first entry, and a schema
is built although the annotation is refused. -/
theorem annotations_checked_second_entry :
    let unknown : Mark := .ofPosition .unknown
    let nullable : Mark := ⟨.unknown, [(AnnotationName.schemaNullable, ⟨[], []⟩)]⟩
    let refused : Mark := ⟨.unknown, [(AnnotationName.schemaType, ⟨[], [("kind", .str "int")]⟩)]⟩
    let port : Node := .entry ⟨refused, .str "port", .plain (.int 80)⟩
    let d : Document := ⟨unknown, .map nullable
      [⟨unknown, .str "host", .plain (.str "web")⟩, ⟨refused, .str "port", .plain (.int 80)⟩]⟩
    ∃ s, DocumentSchema.ofDocument d = .ok s ∧ port ∈ (Node.document d).nodes ∧ port.Malformed ∧
      ¬ (Node.document d).Reaches port ∧
        ∃ a c, (Node.document d).Reaches a ∧ a.Skips c ∧ port ∈ c.nodes := by
  intro unknown nullable refused port d
  have made : ∃ s, DocumentSchema.ofDocument d = .ok s := ⟨_, by rfl⟩
  obtain ⟨s, made⟩ := made
  have mem : port ∈ (Node.document d).nodes := by
    simp [d, port, Node.nodes, Node.heldNodes, Node.entriesNodes, Node.entryNodes]
  have malformed : port.Malformed := ⟨_, .type (by rfl) (by rfl)⟩
  exact ⟨s, made, mem, malformed, (annotations_checked d).2.2 s made port mem malformed⟩

end Stencil
