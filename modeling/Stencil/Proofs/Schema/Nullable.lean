import Stencil.Proofs.Schema.Accepting
import Stencil.Proofs.Schema.Deciding

/-!
# What may be null

A node that may be null has, besides null, the type of its first value. What
that is depends on the node. A document, an entry or an item holds one value,
and its own type is the type of that value; so the node may be null, and else is
what it would be anyway. The first value of a map or an array is an entry or an
item, so a collection that is marked itself is null or what that is: an array of
integers that may be null is an integer or null. A collection that may be null
is written by marking what holds it.

## Main results

* `Node.inferType_without` — the type that a node has without the annotation.
* `nullable_decided` — the type that it has with the annotation, beside the one
  without it.
* `nullable_map_itself` — on a map itself they are types of different values.
-/

namespace Stencil

/-! ## Types in types -/

namespace SchemaType

/-- The type of an array is not the type of its items. -/
theorem ne_array (p : Position) (t : SchemaType) : t ≠ array p t := by
  intro h
  have size : sizeOf t = sizeOf (array p t) := congrArg sizeOf h
  rw [array.sizeOf_spec] at size
  omega

/-- The type of a map is not a type that it declares under a key. -/
theorem ne_map (p : Position) {k : Value} {t : SchemaType} {items : List (Value × SchemaType)}
    (mem : (k, t) ∈ items) : t ≠ map p items := by
  intro h
  have below : sizeOf (k, t) < sizeOf items := List.sizeOf_lt_of_mem mem
  have size : sizeOf t = sizeOf (map p items) := congrArg sizeOf h
  rw [Prod.mk.sizeOf_spec] at below
  rw [map.sizeOf_spec] at size
  omega

end SchemaType

namespace Node

variable {n : Node}

/-! ## A node without the annotation -/

/-- A node on which only `schema/nullable` could decide a type is decided by
nothing without it. -/
theorem resolveType_without (silent : n.annotation? AnnotationName.schemaType = none) :
    (n.without AnnotationName.schemaNullable).resolveType = .ok none := by
  have other : AnnotationName.schemaType ≠ AnnotationName.schemaNullable := by decide
  refine Decides.resolveType (.undecided (.silent ?_) (.silent ?_))
  · rw [annotation?_without_of_ne n other]
    exact silent
  · exact annotation?_without_self n _

/-- Without the annotation a node that has a value has the type of its value. -/
theorem inferType_without (silent : n.annotation? AnnotationName.schemaType = none)
    (valued : n.children ≠ []) (p : Position) :
    inferType p (n.without AnnotationName.schemaNullable) = n.valueType p := by
  have not_bare : ∀ m, n ≠ .bare m := by
    rintro m rfl
    exact valued rfl
  rw [inferType_eq, resolveType_without silent]
  exact valueType_withAnnotations _ not_bare p

/-! ## The type of a node and that of its first value -/

theorem head_mem_described {c : Node} (first : n.children.head? = some c) : c ∈ n.described := by
  cases n with
  | array m is =>
      cases is with
      | nil => cases first
      | cons i is =>
          cases first
          exact List.mem_singleton.mpr rfl
  | _ => exact List.mem_of_head? first

/-- If a node has a value, and the type of its value, its first value has a
type. -/
theorem exists_firstType {p : Position} {t : SchemaType} (valued : n.children ≠ [])
    (typed : n.valueType p = .ok t) :
    ∃ c u, n.children.head? = some c ∧ inferType n.position c = .ok u := by
  have first := List.head?_eq_some_head valued
  obtain ⟨u, hu⟩ := valueType_eq_ok typed _ (head_mem_described first)
  exact ⟨_, u, first, hu⟩

/-- An array has the type of an array of its first item. -/
theorem valueType_array {m : Mark} {is : List (Held Node)} {c : Node} {p : Position}
    {t u : SchemaType} (typed : (Node.array m is).valueType p = .ok t)
    (first : (Node.array m is).children.head? = some c) (hu : inferType m.position c = .ok u) :
    t = .array m.position u := by
  cases is with
  | nil => cases first
  | cons i is =>
      cases first
      rw [valueType, hu] at typed
      cases typed
      rfl

/-- A map whose first key is not written again declares the type of its first
entry under it. -/
theorem valueType_map {m : Mark} {e : Entry Node} {es : List (Entry Node)} {p : Position}
    {t u : SchemaType} (typed : (Node.map m (e :: es)).valueType p = .ok t)
    (hu : inferType m.position (.entry e) = .ok u)
    (single : ∀ e' ∈ es, e.key.same e'.key = false) :
    ∃ items, t = .map m.position ((e.key, u) :: items) := by
  obtain ⟨items, hitems, typed⟩ := bind_eq_ok.mp typed
  cases typed
  have keys : items.map (·.1) = (e :: es).map (·.key) := by
    rw [declaredItems_keys hitems, List.map_map]
    rfl
  cases declaredItems_eq_ok hitems with
  | @cons _ i _ items one _ =>
      obtain ⟨k, v⟩ := i
      obtain ⟨hv, rfl, -⟩ := one
      obtain rfl : u = v := Except.ok.inj (hu.symm.trans hv)
      have later_keys : items.map (·.1) = es.map (·.key) := (List.cons.inj keys).2
      have later : ∀ q ∈ items, e.key.same q.1 = false := by
        intro q hq
        have mem : q.1 ∈ es.map (·.key) := later_keys ▸ List.mem_map_of_mem hq
        obtain ⟨e', he', hkey⟩ := List.mem_map.mp mem
        rw [← hkey]
        exact single e' he'
      obtain ⟨rest, hrest⟩ := Keyed.ofList_cons (e := (e.key, u)) later
      exact ⟨rest, by rw [hrest]⟩

/-! ## A node with the annotation -/

/-- A node on which only `schema/nullable` decides may be null, and else has the
type of its first value. -/
theorem inferType_nullable {a : Annotation} {c : Node} {u : SchemaType}
    (silent : n.annotation? AnnotationName.schemaType = none)
    (stands : n.annotation? AnnotationName.schemaNullable = some a) (plain : a.kwargs = [])
    (first : n.children.head? = some c) (hu : inferType n.position c = .ok u) (p : Position) :
    inferType p n = .ok (.nullable n.position u) := by
  have decides : n.Decides (.ok (some (.nullable n.position u))) :=
    .nullable (.silent silent) (.typed stands plain first hu)
  rw [inferType_eq, decides.resolveType]
  rfl

end Node

/-- **What may be null.** A node with a value, on which `schema/nullable` stands
and no other annotation that decides a type, is null or what its first value is.
If the node holds one value, that is what the node is without the annotation. If
it is an array, it is what the items of that are, and not the array; and if it
is a map, what the map declares under its first key, unless that key is written
again, and not the map. -/
theorem nullable_decided (n : Node) (p : Position) (t : SchemaType) (a : Annotation)
    (silent : n.annotation? AnnotationName.schemaType = none)
    (stands : n.annotation? AnnotationName.schemaNullable = some a) (plain : a.kwargs = [])
    (valued : n.children ≠ [])
    (typed : Node.inferType p (n.without AnnotationName.schemaNullable) = .ok t) :
    ∃ c u, n.children.head? = some c ∧ Node.inferType n.position c = .ok u ∧
      Node.inferType p n = .ok (.nullable n.position u) ∧
      (∀ v, (SchemaType.nullable n.position u).Accepts v ↔ v = .null ∨ u.Accepts v) ∧
      (n.held? = some c → u = t) ∧
      (∀ m is, n = .array m is → t = .array m.position u ∧ u ≠ t) ∧
      ∀ m e es, n = .map m (e :: es) → (∀ e' ∈ es, e.key.same e'.key = false) →
        (∃ items, t = .map m.position ((e.key, u) :: items)) ∧ u ≠ t := by
  rw [Node.inferType_without silent valued] at typed
  obtain ⟨c, u, first, hu⟩ := Node.exists_firstType valued typed
  refine ⟨c, u, first, hu, Node.inferType_nullable silent stands plain first hu p,
    fun v => SchemaType.accepts_nullable_iff n.position, fun held => ?_, ?_, ?_⟩
  · rw [Node.valueType_of_held held, hu] at typed
    exact Except.ok.inj typed
  · rintro m is rfl
    obtain rfl := Node.valueType_array typed first hu
    exact ⟨rfl, SchemaType.ne_array _ _⟩
  · rintro m e es rfl single
    cases first
    obtain ⟨items, rfl⟩ := Node.valueType_map typed hu single
    exact ⟨⟨items, rfl⟩, SchemaType.ne_map _ (List.mem_cons_self ..)⟩

/-- A map that is marked itself and an item that is marked for the map in it:
the item may be null and else is a map, and the map may be null and else is a
host name. -/
theorem nullable_decided_map :
    let unknown : Mark := .ofPosition .unknown
    let nullable : Mark := ⟨.unknown, [(AnnotationName.schemaNullable, ⟨[], []⟩)]⟩
    let entries : List (Entry Node) :=
      [⟨unknown, .str "host", .plain (.str "a")⟩, ⟨unknown, .str "port", .plain (.int 80)⟩]
    let marked : Node := .map nullable entries
    let holding : Node := .item ⟨nullable, .map unknown entries⟩
    ∃ t u, Node.inferType .unknown (marked.without AnnotationName.schemaNullable) = .ok t ∧
      Node.inferType .unknown (holding.without AnnotationName.schemaNullable) = .ok t ∧
      Node.inferType .unknown holding = .ok (.nullable .unknown t) ∧
      Node.inferType .unknown marked = .ok (.nullable .unknown u) ∧ u ≠ t := by
  intro unknown nullable entries marked holding
  let t : SchemaType := .map .unknown <| Keyed.ofList
    [(.str "host", .scalar .unknown "string" (.str "a")),
      (.str "port", .scalar .unknown "integer" (.int 80))]
  have marked_typed : Node.inferType .unknown (marked.without AnnotationName.schemaNullable) =
      .ok t := by rfl
  have holding_typed : Node.inferType .unknown (holding.without AnnotationName.schemaNullable) =
      .ok t := by rfl
  obtain ⟨c, u, first, -, built, -, -, -, of_map⟩ := nullable_decided marked .unknown t ⟨[], []⟩
    (by rfl) (by rfl) rfl (List.cons_ne_nil _ _) marked_typed
  obtain ⟨c', t', first', -, built', -, of_held, -⟩ := nullable_decided holding .unknown t ⟨[], []⟩
    (by rfl) (by rfl) rfl (List.cons_ne_nil _ _) holding_typed
  obtain rfl := Option.some.inj first'
  obtain rfl : t' = t := of_held rfl
  have single : ∀ e ∈ entries.tail, (Value.str "host").same e.key = false :=
    List.forall_mem_singleton.mpr (by decide +kernel)
  exact ⟨t, u, marked_typed, holding_typed, built', built, (of_map nullable _ _ rfl single).2⟩

/-- A map of a host that is marked itself accepts a host, which neither null nor
the map is. -/
theorem nullable_map_itself :
    let nullable : Mark := ⟨.unknown, [(AnnotationName.schemaNullable, ⟨[], []⟩)]⟩
    let marked : Node := .map nullable [⟨.ofPosition .unknown, .str "host", .plain (.str "a")⟩]
    ∃ t b, Node.inferType .unknown (marked.without AnnotationName.schemaNullable) = .ok t ∧
      Node.inferType .unknown marked = .ok b ∧ b ≠ .nullable .unknown t ∧
      b.Accepts (.str "b") ∧ ¬ (SchemaType.nullable .unknown t).Accepts (.str "b") := by
  intro nullable marked
  let host : SchemaType := .scalar .unknown "string" (.str "a")
  let t : SchemaType := .map .unknown [(.str "host", host)]
  have without : Node.inferType .unknown (marked.without AnnotationName.schemaNullable) =
      .ok t := by rfl
  have first : marked.children.head? =
      some (.entry ⟨.ofPosition .unknown, .str "host", .plain (.str "a")⟩) := rfl
  have built : Node.inferType .unknown marked = .ok (.nullable .unknown host) :=
    Node.inferType_nullable (by rfl) (by rfl) rfl first (by rfl) .unknown
  have accepted : (SchemaType.nullable .unknown host).Accepts (.str "b") := by
    rw [SchemaType.accepts_iff]
    rfl
  have refused : ¬ (SchemaType.nullable .unknown t).Accepts (.str "b") := by
    rw [SchemaType.accepts_iff]
    exact List.cons_ne_nil _ _
  refine ⟨t, _, without, built, ?_, accepted, refused⟩
  intro h
  exact refused (h ▸ accepted)

end Stencil
