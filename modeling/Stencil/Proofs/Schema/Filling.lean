import Stencil.Proofs.Document.Lookup
import Stencil.Proofs.Schema.Deciding
import Stencil.Proofs.Schema.Defaults

/-!
# Defaults read off a document

The defaults of a schema are made in three steps: types are built of a document,
a default is made of each type, and the result is wrapped into a document again.
What comes out can be read off the document itself. A node that accepts anything
keeps its whole value, a node that may be null becomes null, and every other array
loses its items; nothing else is changed, so a document without annotations that
decide a type and without arrays has its own value for its default.

The annotations of a node say which of these it is before any type is built.

## Main definitions

* `Effect`, `Node.effect` — what the annotations of a node make of its default.
* `Node.filled` — a tree with the defaults in it.
* `Node.Kept` — nodes that filling does not change.

## Main results

* `Node.effect_of_resolved` — the effect of annotations is the one that they
  decide.
* `Node.toPlain_filled` — the default of the type of a node is the plain value of
  the filled node.
* `defaults_filled` — the defaults of a schema, read off its document.
-/

namespace Stencil

/-! ## What annotations make of a default -/

/-- What the annotations of a node make of its default: the one that its value
has, its whole value, or null. -/
inductive Effect where
  | own | whole | null
  deriving DecidableEq, Repr

/-- Whether the last keyword asks for any value. -/
def Override.saysAny (kws : List (Text × Value)) : Bool :=
  match kws.getLast? with
  | some (_, .bool isAny) => isAny
  | _ => false

/-- The effect of a node's annotations. Beside `schema/type`, whatever that says,
`schema/nullable` has none. -/
def Mark.effect (m : Mark) : Effect :=
  match m.find? AnnotationName.schemaType with
  | some a => if Override.saysAny a.kwargs then .whole else .own
  | none => if m.carries AnnotationName.schemaNullable then .null else .own

/-- One of two trees, or null. -/
def Effect.pick (own whole : Node) : Effect → Node
  | .own => own
  | .whole => whole
  | .null => .plain .null

namespace Node

/-- The effect of the annotations of a node; a plain value has none. -/
def effect (n : Node) : Effect :=
  match n.mark? with
  | some m => m.effect
  | none => .own

mutual
/-- A tree with the defaults in it: nodes that accept anything stay as they are,
nodes that may be null hold null, and other arrays hold nothing. There is no value
in a bare node, so null stands for it where anything is accepted. -/
def filled : Node → Node
  | .plain v => .plain v
  | .bare m => m.effect.pick (.bare m) (.plain .null)
  | .document d => .document (heldFilled d)
  | .entry e => .entry (entryFilled e)
  | .item i => .item (heldFilled i)
  | .map m es => m.effect.pick (.map m (entriesFilled es)) (.map m es)
  | .array m is => m.effect.pick (.array m []) (.array m is)

/-- A held node with the defaults in it. -/
def heldFilled : Held Node → Held Node
  | ⟨m, v⟩ => ⟨m, m.effect.pick (filled v) v⟩

/-- An entry with the defaults in it. -/
def entryFilled : Entry Node → Entry Node
  | ⟨m, k, v⟩ => ⟨m, k, m.effect.pick (filled v) v⟩

/-- The entries of a map with the defaults in them. -/
def entriesFilled : List (Entry Node) → List (Entry Node)
  | [] => []
  | e :: es => entryFilled e :: entriesFilled es
end

/-! ## The effect is what annotations decide -/

theorem saysAny_of_asks {kws : List (Text × Value)} {isAny : Bool}
    (asks : Override.Asks kws isAny) : Override.saysAny kws = isAny := by
  rw [Override.saysAny, asks.2]

/-- Which sort of type is decided by annotations, if any. -/
def decidedEffect : Option SchemaType → Effect
  | some (.any _ _) => .whole
  | some _ => .null
  | none => .own

variable {n : Node}

theorem effect_eq (n : Node) :
    n.effect = match n.annotation? AnnotationName.schemaType with
      | some a => if Override.saysAny a.kwargs then .whole else .own
      | none => if (n.annotation? AnnotationName.schemaNullable).isSome then .null else .own := by
  unfold effect annotation?
  cases n.mark? <;> rfl

/-- **The effect of annotations** is the one that they decide. -/
theorem effect_of_resolved {r : Option SchemaType} (h : n.resolveType = .ok r) :
    n.effect = decidedEffect r := by
  rw [effect_eq]
  cases (n.resolveType_iff _).mp h with
  | any wishes wraps =>
      cases wishes with
      | asked stands asks => simp [stands, saysAny_of_asks asks, decidedEffect]
  | shadowed wishes wraps =>
      cases wishes with
      | asked stands asks => simp [stands, saysAny_of_asks asks, decidedEffect]
  | nullable wishes wraps =>
      cases wishes with
      | silent absent =>
          cases wraps with
          | typed stands plain first typed => simp [absent, stands, decidedEffect]
  | undecided wishes wraps =>
      cases wishes with
      | silent absent =>
          cases wraps with
          | silent absent' => simp [absent, absent', decidedEffect]

/-! ## Plain values of filled nodes -/

/-- What a filled node that holds a value holds. -/
theorem filled_of_held {c : Node} (h : n.held? = some c) :
    n.filled.toPlain = (n.effect.pick c.filled c).toPlain := by
  cases n <;> cases h
  case document d => rw [filled, heldFilled, toPlain, heldPlain]; rfl
  case entry e => rw [filled, entryFilled, toPlain, entryPlain]; rfl
  case item i => rw [filled, heldFilled, toPlain, heldPlain]; rfl

/-- Every filled node is picked by an effect, and the whole of it is what the node
declares. -/
theorem exists_filled (n : Node) :
    ∃ own whole, n.filled.toPlain = (n.effect.pick own whole).toPlain ∧
      whole.toPlain = n.declared := by
  have of_held : ∀ c, n.held? = some c → ∃ own whole,
      n.filled.toPlain = (n.effect.pick own whole).toPlain ∧ whole.toPlain = n.declared :=
    fun c hc => ⟨c.filled, c, filled_of_held hc, (declared_of_held hc).symm⟩
  cases n with
  | plain v => exact ⟨.plain v, .plain v, by rw [filled]; rfl, rfl⟩
  | bare m => exact ⟨.bare m, .plain .null, by rw [filled]; rfl, by rw [toPlain]; rfl⟩
  | document d => exact of_held d.value rfl
  | entry e => exact of_held e.value rfl
  | item i => exact of_held i.value rfl
  | map m es => exact ⟨.map m (entriesFilled es), .map m es, by rw [filled]; rfl, rfl⟩
  | array m is => exact ⟨.array m [], .array m is, by rw [filled]; rfl, rfl⟩

/-- A node that accepts anything is filled with its own value. -/
theorem toPlain_filled_whole (h : n.effect = .whole) : n.filled.toPlain = n.declared := by
  obtain ⟨own, whole, hfilled, hwhole⟩ := n.exists_filled
  rw [hfilled, h, Effect.pick, hwhole]

/-- A node that may be null is filled with null. -/
theorem toPlain_filled_null (h : n.effect = .null) : n.filled.toPlain = .ok .null := by
  obtain ⟨own, whole, hfilled, -⟩ := n.exists_filled
  rw [hfilled, h, Effect.pick, toPlain]

/-- Any other array is filled with nothing. -/
theorem toPlain_filled_array {m : Mark} {is : List (Held Node)} (h : m.effect = .own) :
    (Node.array m is).filled.toPlain = .ok (.list []) := by
  rw [filled, h, Effect.pick, toPlain, itemsPlain]
  rfl

theorem entriesFilled_eq (es : List (Entry Node)) : entriesFilled es = es.map entryFilled := by
  induction es with
  | nil => rw [entriesFilled, List.map_nil]
  | cons e es ih => rw [entriesFilled, ih, List.map_cons]

/-- If the filled entries of a map have the defaults of their types for plain
values, the entries filled have the defaults of all. -/
theorem entriesPlain_filled {p : Position} {es : List (Entry Node)}
    {items : List (Value × SchemaType)}
    (types : declaredItems (es.map fun e => (e.key, inferType p (.entry e))) = .ok items)
    (defaults : ∀ e ∈ es, ∀ t, inferType p (.entry e) = .ok t →
      (Node.entry e).filled.toPlain = .ok t.default) :
    entriesPlain (entriesFilled es) = .ok (SchemaType.itemDefaults items) := by
  have hitems := declaredItems_eq_ok types
  clear types
  induction es generalizing items with
  | nil =>
      cases hitems
      rw [entriesFilled, entriesPlain, SchemaType.itemDefaults]
  | cons e es ih =>
      cases hitems with
      | @cons _ i _ items hhead htail =>
          obtain ⟨htype, hkey, hashable⟩ := hhead
          obtain ⟨hfirst, hrest⟩ := List.forall_mem_cons.mp defaults
          obtain ⟨m, k, v⟩ := e
          obtain ⟨_, t⟩ := i
          cases hkey
          have hv := hfirst t htype
          rw [filled, toPlain, entryFilled, entryPlain] at hv
          rw [entriesFilled, entryFilled, entriesPlain, hv, checkedKey_of_hashable hashable,
            ih hrest htail, SchemaType.itemDefaults]
          rfl

end Node

/-- Defaults may be made of the items of a map before or after they are written
under their keys. -/
theorem SchemaType.itemDefaults_ofList (items : List (Value × SchemaType)) :
    itemDefaults (Keyed.ofList items) = Keyed.ofList (itemDefaults items) := by
  rw [itemDefaults_eq, itemDefaults_eq, Keyed.ofList_map]

namespace Node

/-- The default of the type that a value has is the plain value of the filled node,
if that is so for the values directly below. -/
theorem toPlain_filled_of_valueType {n : Node} {p : Position} {t : SchemaType}
    (undecided : n.resolveType = .ok none) (h : n.valueType p = .ok t)
    (below : ∀ c ∈ n.children, ∀ {q : Position} {u : SchemaType}, inferType q c = .ok u →
      c.filled.toPlain = .ok u.default) : n.filled.toPlain = .ok t.default := by
  have effect := effect_of_resolved undecided
  have of_held : ∀ c, n.held? = some c → n.filled.toPlain = .ok t.default := by
    intro c hc
    rw [valueType_of_held hc] at h
    rw [filled_of_held hc, effect]
    exact below c (by rw [children_of_held hc]; exact List.mem_singleton_self c) h
  cases n with
  | plain v =>
      cases h
      rw [filled, toPlain, Value.declaredType]
      split <;> rw [SchemaType.default]
  | bare m =>
      cases h
      have own : m.effect = .own := effect
      rw [filled, own, Effect.pick, toPlain, SchemaType.default]
  | document d => exact of_held d.value rfl
  | entry e => exact of_held e.value rfl
  | item i => exact of_held i.value rfl
  | map m es =>
      have own : m.effect = .own := effect
      obtain ⟨items, hitems, h⟩ := bind_eq_ok.mp h
      cases h
      have entries := entriesPlain_filled hitems fun e he t ht =>
        below (.entry e) (List.mem_map_of_mem he) ht
      rw [filled, own, Effect.pick, toPlain, entries, SchemaType.default,
        SchemaType.itemDefaults_ofList]
      rfl
  | array m is =>
      have nothing : t.default = .list [] := by
        cases is with
        | nil => cases h; rw [SchemaType.default]
        | cons i is =>
            obtain ⟨item, -, h⟩ := bind_eq_ok.mp h
            cases h
            rw [SchemaType.default]
      rw [toPlain_filled_array effect, nothing]

/-- **The default of the type of a node** is the plain value of the filled node. -/
theorem toPlain_filled (n : Node) : ∀ {p : Position} {t : SchemaType}, inferType p n = .ok t →
    n.filled.toPlain = .ok t.default := by
  induction n using childInduction with
  | step n ih =>
      intro p t h
      rcases inferType_eq_ok.mp h with ⟨u, hdecided, h⟩ | ⟨undecided, h⟩
      · have effect := effect_of_resolved hdecided
        rcases resolveType_eq_some hdecided with ⟨q, rfl⟩ | ⟨-, c, wrapped, -, -, rfl⟩
        · obtain ⟨v, hv, h⟩ := bind_eq_ok.mp h
          cases h
          rw [toPlain_filled_whole effect, hv, SchemaType.default]
        · cases h
          rw [toPlain_filled_null effect, SchemaType.default]
      · exact toPlain_filled_of_valueType undecided h ih

/-! ## Trees that stay as they are -/

/-- Whether filling does not change a node itself: its annotations have no effect,
and it is no array. -/
def Kept (n : Node) : Prop := n.effect = .own ∧ ∀ m is, n ≠ .array m is

/-- A tree of nodes that are kept stays as it is. -/
theorem filled_eq_self (n : Node) : (∀ c ∈ n.nodes, c.Kept) → n.filled = n := by
  induction n using childInduction with
  | step n ih =>
      intro kept
      have below : ∀ c ∈ n.children, c.filled = c := fun c hc =>
        ih c hc fun x hx => kept x (mem_nodes.mpr (.inr ⟨c, hc, hx⟩))
      have itself : n.mark?.isSome = true → n.Kept := fun marked =>
        kept n (mem_nodes.mpr (.inl ⟨marked, rfl⟩))
      cases n with
      | plain v => rw [filled]
      | bare m =>
          have own : m.effect = .own := (itself rfl).1
          rw [filled, own, Effect.pick]
      | document d =>
          have own : d.mark.effect = .own := (itself rfl).1
          rw [filled, heldFilled, own, Effect.pick, below d.value (List.mem_singleton_self _)]
      | entry e =>
          have own : e.mark.effect = .own := (itself rfl).1
          rw [filled, entryFilled, own, Effect.pick, below e.value (List.mem_singleton_self _)]
      | item i =>
          have own : i.mark.effect = .own := (itself rfl).1
          rw [filled, heldFilled, own, Effect.pick, below i.value (List.mem_singleton_self _)]
      | map m es =>
          have own : m.effect = .own := (itself rfl).1
          have entries : es.map entryFilled = es := by
            refine (List.map_congr_left fun e he => ?_).trans (List.map_id es)
            have one := below (.entry e) (List.mem_map_of_mem he)
            rw [filled] at one
            exact Node.entry.inj one
          rw [filled, own, Effect.pick, entriesFilled_eq, entries]
      | array m is => exact absurd rfl ((itself rfl).2 m is)

end Node

/-- **Defaults read off a document.** The effect of annotations is the one that they
decide: a filled node that accepts anything has its whole declared value, one that
may be null has null, and any other array has nothing. If a schema can be made of a
document, it has defaults, and their plain value is that of the filled document;
where no annotation has an effect and there is no array, it is the plain value of
the document itself. Maps keep their keys in order, of keys that are the same the
first one with the last value. -/
theorem defaults_filled (d : Document) (s : DocumentSchema) (wellKeyed : d.WellKeyed)
    (made : DocumentSchema.ofDocument d = .ok s) :
    (∀ n : Node,
        (∀ r, n.resolveType = .ok r → n.effect = Node.decidedEffect r) ∧
        (n.effect = .whole → n.filled.toPlain = n.declared) ∧
        (n.effect = .null → n.filled.toPlain = .ok .null) ∧
        ∀ m is, n = .array m is → n.effect = .own → n.filled.toPlain = .ok (.list [])) ∧
      (∃ v x, s.defaultValues = .ok v ∧ v.value.toPlain = .ok x ∧
        (Node.document d).filled.toPlain = .ok x ∧
        ((∀ n ∈ (Node.document d).nodes, n.Kept) → d.value.toPlain = .ok x)) ∧
      ∀ (m : Mark) (es : List (Entry Node)) (v : Value), (Node.map m es).toPlain = .ok v →
        ∃ plain, v = .map plain ∧ Node.Leaves es plain := by
  obtain ⟨v, hdefaults, hplain, -⟩ := DocumentSchema.exists_defaults wellKeyed made
  have filled : (Node.document d).filled.toPlain = .ok s.type.default := by
    obtain ⟨t, ht, made⟩ := bind_eq_ok.mp made
    cases made
    have htype : Node.inferType .unknown (.document d) = .ok t := by rw [Node.inferType, ht]
    exact Node.toPlain_filled _ htype
  refine ⟨fun n => ⟨fun r => Node.effect_of_resolved, Node.toPlain_filled_whole,
      Node.toPlain_filled_null, ?_⟩,
    ⟨v, _, hdefaults, hplain, filled, fun kept => ?_⟩, fun m es v => Node.leaves_of_toPlain⟩
  · rintro m is rfl own
    exact Node.toPlain_filled_array own
  · rw [← Node.toPlain_of_held (n := .document d) rfl, ← Node.filled_eq_self _ kept, filled]

/-- A schema that writes one key twice, says that its name may be null, takes that
back for its owner, and declares an array where anything is accepted and another
one elsewhere. -/
theorem defaults_filled_annotated :
    let unknown : Mark := .ofPosition .unknown
    let nullable : Text × Annotation := (AnnotationName.schemaNullable, ⟨[], []⟩)
    let any (b : Bool) : Text × Annotation := (AnnotationName.schemaType, ⟨[], [("any", .bool b)]⟩)
    let ports : Node := .array unknown [⟨unknown, .plain (.int 80)⟩]
    let d : Document := ⟨unknown, .map unknown
      [⟨unknown, .int 1, .plain (.str "one")⟩, ⟨⟨.unknown, [nullable]⟩, .str "name", .map unknown []⟩,
        ⟨⟨.unknown, [nullable, any false]⟩, .str "owner", .plain (.str "root")⟩,
        ⟨⟨.unknown, [any true]⟩, .str "free", ports⟩, ⟨unknown, .str "ports", ports⟩,
        ⟨unknown, .bool true, .plain (.str "last")⟩]⟩
    ∃ s v, d.WellKeyed ∧ DocumentSchema.ofDocument d = .ok s ∧ s.defaultValues = .ok v ∧
      v.value.toPlain = .ok (.map [(.int 1, .str "last"), (.str "name", .null),
        (.str "owner", .str "root"), (.str "free", .list [.int 80]), (.str "ports", .list [])]) := by
  intro unknown nullable any ports d
  have wellKeyed : d.WellKeyed := by
    simp [d, ports, Document.WellKeyed, Node.HeldWellKeyed, Node.WellKeyed, Node.EntriesWellKeyed,
      Node.EntryWellKeyed, Node.ItemsWellKeyed, Value.WellKeyed]
  obtain ⟨s, made⟩ : ∃ s, DocumentSchema.ofDocument d = .ok s := ⟨_, by with_unfolding_all rfl⟩
  obtain ⟨-, ⟨v, x, hdefaults, hplain, filled, -⟩, -⟩ := defaults_filled d s wellKeyed made
  refine ⟨s, v, wellKeyed, made, hdefaults, ?_⟩
  rw [hplain, ← filled]
  with_unfolding_all rfl

end Stencil
