import Stencil.Proofs.Document.Children
import Stencil.Proofs.Document.Faults
import Stencil.Proofs.Document.Plain
import Stencil.Schema.Basic

/-!
# What annotations decide

The type of a node is made in one of two ways: annotations on the node decide
it, or else it is made from its value. Both ways are one equation, stated for
a node and the values directly below it, whatever sort of node it is. The
annotations are read first. That can fail for their arguments, and because the
annotation that lets a node be null asks for the type of the node's first
value; what they decide is that the node accepts anything, or what its first
value accepts and null.

## Main definitions

* `Node.declared`, `Node.valueType` — what a type that accepts anything
  defaults to, and the type that a node has without its annotations.
* `Node.described` — the values below a node that have a part in its type.
* `Node.Rejects`, `Node.Malformed` — nodes with an annotation whose arguments
  are refused.

## Main results

* `Node.inferType_eq` — the two ways in which a type is made.
* `Node.resolveType_eq_error`, `Node.resolveType_eq_ok` — when the annotations
  of a node can be read.
* `Node.resolveType_eq_some` — what they decide.
-/

namespace Stencil

/-! ## Reading the annotations of a node -/

namespace Override

variable {valueType : Option (Except Failure SchemaType)}

/-- Reading one annotation, if it is there. -/
def readOne (read : Annotation → Except Failure Override) :
    Option Annotation → Except Failure (List Override)
  | some a => do return [← read a]
  | none => .ok []

theorem readOne_eq_error {read : Annotation → Except Failure Override} {found : Option Annotation}
    {x : Failure} (h : readOne read found = .error x) : ∃ a, found = some a ∧ read a = .error x := by
  cases found with
  | none => cases h
  | some a =>
      rcases bind_eq_error.mp h with h | ⟨_, _, h⟩
      · exact ⟨a, rfl, h⟩
      · cases h

theorem readOne_eq_ok {read : Annotation → Except Failure Override} {found : Option Annotation}
    {os : List Override} (h : readOne read found = .ok os) :
    (∀ a, found = some a → ∃ o, read a = .ok o) ∧
      ∀ o ∈ os, ∃ a, found = some a ∧ read a = .ok o := by
  cases found with
  | none =>
      cases h
      exact ⟨nofun, nofun⟩
  | some a =>
      obtain ⟨o, ho, h⟩ := bind_eq_ok.mp h
      cases h
      refine ⟨?_, List.forall_mem_singleton.mpr ⟨a, rfl, ho⟩⟩
      rintro _ ⟨⟩
      exact ⟨o, ho⟩

/-- Both annotations are read, one after the other. -/
theorem collect_eq (m : Mark) (valueType : Option (Except Failure SchemaType)) :
    collect m valueType = do
      let first ← readOne (ofType m.position) (m.find? AnnotationName.schemaType)
      let second ← readOne (ofNullable m.position · valueType)
        (m.find? AnnotationName.schemaNullable)
      return first ++ second := by
  unfold collect
  cases m.find? AnnotationName.schemaType <;> cases m.find? AnnotationName.schemaNullable <;>
    simp [readOne] <;> rfl

theorem ofType_eq_ok {p : Position} {a : Annotation} {o : Override} (h : ofType p a = .ok o) :
    ∃ isAny, o = .type isAny p := by
  unfold ofType at h
  split at h
  · cases h
  · obtain ⟨isAny, -, h⟩ := bind_eq_ok.mp h
    cases h
    exact ⟨isAny, rfl⟩

/-- What lets a node be null has the type of the node's first value. That the
arguments are accepted depends on there being a value, not on its type. -/
theorem ofNullable_eq_ok {p : Position} {a : Annotation} {o : Override}
    (h : ofNullable p a valueType = .ok o) :
    (∃ t, valueType = some (.ok t) ∧ o = .nullable t p) ∧
      ∀ x, ofNullable p a (valueType.map fun _ => .ok default) ≠ .error x := by
  unfold ofNullable at h ⊢
  split at h
  · cases h
  · next hkwargs =>
      cases valueType with
      | none => cases h
      | some r =>
          obtain ⟨t, rfl, h⟩ := bind_eq_ok.mp h
          cases h
          rw [if_neg hkwargs]
          exact ⟨⟨t, rfl, rfl⟩, nofun⟩

/-- Reading what lets a node be null fails for the arguments, or because there
is no value, or as the type of the value does. -/
theorem ofNullable_eq_error {p : Position} {a : Annotation} {x : Failure}
    (h : ofNullable p a valueType = .error x) :
    ofNullable p a (valueType.map fun _ => .ok default) = .error x ∨
      valueType = some (.error x) := by
  unfold ofNullable at h ⊢
  split at h
  · next hkwargs => exact .inl (by rw [if_pos hkwargs, h])
  · next hkwargs =>
      cases valueType with
      | none => exact .inl (by rw [if_neg hkwargs]; exact h)
      | some r =>
          rcases bind_eq_error.mp h with rfl | ⟨_, _, h⟩
          · exact .inr rfl
          · cases h

/-- The override that decides is one of those that were read. -/
theorem mem_of_select {os : List Override} {o : Override} (h : select os = some o) : o ∈ os := by
  cases os with
  | nil => cases h
  | cons a os =>
      cases h
      refine List.foldlRecOn os _ (List.mem_cons_self ..) fun best hbest b hb => ?_
      split
      · exact List.mem_cons_of_mem _ hb
      · exact hbest

end Override

/-- A type that annotations decide is missing only if the declared value is. -/
theorem withDeclared_eq_error {declared : Except Failure Value} {t : SchemaType} {x : Failure}
    (h : withDeclared declared t = .error x) : declared = .error x := by
  cases t with
  | any p d =>
      rcases bind_eq_error.mp h with h | ⟨_, _, h⟩
      · exact h
      · cases h
  | _ => cases h

/-- The items of a map are made one by one, the type of each before its
key. -/
theorem declaredItems_eq (types : List (Value × Except Failure SchemaType)) :
    declaredItems types = types.mapM fun p => do
      let t ← p.2
      let key ← checkedKey p.1
      return (key, t) := by
  induction types with
  | nil => rfl
  | cons p types ih =>
      obtain ⟨k, r⟩ := p
      rw [declaredItems, ih, List.mapM_cons]
      cases r with
      | error x => rfl
      | ok t => cases checkedKey k <;> rfl

/-- The items of a map are the entries with their types, if each has one and
all keys can be keys. -/
theorem declaredItems_eq_ok {types : List (Value × Except Failure SchemaType)}
    {items : List (Value × SchemaType)} (h : declaredItems types = .ok items) :
    List.Forall₂ (fun p i => p.2 = .ok i.2 ∧ i.1 = p.1 ∧ p.1.isHashable = true) types items := by
  rw [declaredItems_eq] at h
  refine (mapM_eq_ok h).imp fun p i hi => ?_
  obtain ⟨t, ht, hi⟩ := bind_eq_ok.mp hi
  obtain ⟨key, hkey, hi⟩ := bind_eq_ok.mp hi
  cases hi
  exact ⟨ht, checkedKey_eq_ok hkey⟩

theorem declaredItems_keys {types : List (Value × Except Failure SchemaType)}
    {items : List (Value × SchemaType)} (h : declaredItems types = .ok items) :
    items.map (·.1) = types.map (·.1) := by
  have aligned := declaredItems_eq_ok h
  clear h
  induction aligned with
  | nil => rfl
  | cons one _ ih => rw [List.map_cons, List.map_cons, one.2.1, ih]

namespace Node

/-! ## The two ways in which a type is made -/

theorem entryTypes_eq (es : List (Entry Node)) :
    entryTypes es = es.map fun e => (e.key, entryType e) := by
  induction es with
  | nil => rw [entryTypes]; rfl
  | cons e es ih => rw [entryTypes, ih]; rfl

/-- The value that a node declares where it accepts anything. A bare node has
none below it. -/
def declared : Node → Except Failure Value
  | .bare _ => .ok .null
  | n => n.toPlain

theorem declared_of_held {n c : Node} (h : n.held? = some c) : n.declared = c.toPlain := by
  rw [← toPlain_of_held h]
  cases n <;> cases h <;> rfl

theorem declared_onlyFaults (n : Node) : OnlyFaults n.declared := by
  cases n with
  | bare m => exact .ok _
  | _ => exact toPlain_onlyFaults _

/-- The type that a node has if its annotations decide none. -/
def valueType (p : Position) : Node → Except Failure SchemaType
  | .plain v => .ok (v.declaredType p)
  | .bare m => .ok (.any m.position (.node m))
  | .document d => inferType d.mark.position d.value
  | .entry e => inferType e.mark.position e.value
  | .item i => inferType i.mark.position i.value
  | .map m es => do
    return .map m.position
      (Keyed.ofList (← declaredItems (es.map fun e => (e.key, inferType m.position (.entry e)))))
  | .array m [] => .ok (.array m.position (.any m.position .null))
  | .array m (i :: _) => do return .array m.position (← inferType m.position (.item i))

theorem valueType_of_held {n c : Node} (h : n.held? = some c) (p : Position) :
    n.valueType p = inferType n.position c := by
  cases n <;> cases h <;> rfl

/-- **A type is made in one of two ways**: by the annotations of a node, or
else from its value. -/
theorem inferType_eq (p : Position) (n : Node) :
    inferType p n = n.resolveType >>= fun
      | some t => withDeclared n.declared t
      | none => n.valueType p := by
  cases n with
  | plain v => rw [inferType]; rfl
  | bare m => rw [inferType]; rfl
  | document d => rw [inferType, heldType, declared_of_held rfl]; rfl
  | entry e => rw [inferType, entryType, declared_of_held rfl]; rfl
  | item i => rw [inferType, heldType, declared_of_held rfl]; rfl
  | map m es =>
      have hfirst : (entryTypes es).head?.map (·.2) = (Node.map m es).firstType := by
        rw [entryTypes_eq, firstType]
        cases es with
        | nil => rfl
        | cons e es => simp [children, position, mark?, inferType]
      have hown : declaredItems (entryTypes es) =
          declaredItems (es.map fun e => (e.key, inferType m.position (.entry e))) := by
        simp [entryTypes_eq, inferType]
      rw [inferType, hfirst, hown]
      rfl
  | array m is =>
      cases is with
      | nil => rw [inferType, itemTypes]; rfl
      | cons i is =>
          have hitem : heldType i = inferType m.position (.item i) := by rw [inferType]
          rw [inferType, itemTypes, hitem]
          rfl

/-- The type of a node that has one. -/
theorem inferType_eq_ok {p : Position} {n : Node} {t : SchemaType} :
    inferType p n = .ok t ↔
      (∃ u, n.resolveType = .ok (some u) ∧ withDeclared n.declared u = .ok t) ∨
        n.resolveType = .ok none ∧ n.valueType p = .ok t := by
  rw [inferType_eq, bind_eq_ok]
  constructor
  · rintro ⟨_ | u, hu, h⟩
    · exact .inr ⟨hu, h⟩
    · exact .inl ⟨u, hu, h⟩
  · rintro (⟨u, hu, h⟩ | ⟨hu, h⟩)
    · exact ⟨some u, hu, h⟩
    · exact ⟨none, hu, h⟩

/-- Why a node has no type: its annotations cannot be read, or the value that
it declares is missing, or its annotations decide nothing and its value has no
type. -/
theorem inferType_eq_error {p : Position} {n : Node} {x : Failure}
    (h : inferType p n = .error x) :
    n.resolveType = .error x ∨ n.declared = .error x ∨
      n.resolveType = .ok none ∧ n.valueType p = .error x := by
  rw [inferType_eq] at h
  rcases bind_eq_error.mp h with h | ⟨_ | t, hresolved, h⟩
  · exact .inl h
  · exact .inr (.inr ⟨hresolved, h⟩)
  · exact .inr (.inl (withDeclared_eq_error h))

/-! ## The values that describe a node -/

/-- The values that describe a node: of an array it is the first item, and of
all other nodes every value below. -/
def described : Node → List Node
  | .array m is => (Node.array m is).children.take 1
  | n => n.children

theorem described_subset (n : Node) : n.described ⊆ n.children := by
  cases n with
  | array m is => exact List.take_subset _ _
  | _ => exact List.Subset.refl _

/-- Why a value has no type: something that describes it has none, or the key
of an entry cannot be one. -/
theorem valueType_eq_error {p : Position} {n : Node} {x : Failure}
    (h : n.valueType p = .error x) :
    (∃ c ∈ n.described, inferType n.position c = .error x) ∨
      ∃ e, .entry e ∈ n.children ∧ checkedKey e.key = .error x := by
  cases n with
  | plain v => cases h
  | bare m => cases h
  | document d => exact .inl ⟨d.value, List.mem_singleton.mpr rfl, h⟩
  | entry e => exact .inl ⟨e.value, List.mem_singleton.mpr rfl, h⟩
  | item i => exact .inl ⟨i.value, List.mem_singleton.mpr rfl, h⟩
  | map m es =>
      rcases bind_eq_error.mp h with h | ⟨_, _, h⟩
      · rw [declaredItems_eq] at h
        obtain ⟨p, hp, h⟩ := mapM_eq_error h
        obtain ⟨e, he, rfl⟩ := List.mem_map.mp hp
        rcases bind_eq_error.mp h with h | ⟨_, _, h⟩
        · exact .inl ⟨.entry e, List.mem_map_of_mem he, h⟩
        · rcases bind_eq_error.mp h with h | ⟨_, _, h⟩
          · exact .inr ⟨e, List.mem_map_of_mem he, h⟩
          · cases h
      · cases h
  | array m is =>
      cases is with
      | nil => cases h
      | cons i is =>
          rcases bind_eq_error.mp h with h | ⟨_, _, h⟩
          · exact .inl ⟨.item i, List.mem_singleton.mpr rfl, h⟩
          · cases h

/-- If a value has a type, so has everything that describes it. -/
theorem valueType_eq_ok {p : Position} {n : Node} {t : SchemaType} (h : n.valueType p = .ok t) :
    ∀ c ∈ n.described, ∃ u, inferType n.position c = .ok u := by
  cases n with
  | plain v => exact nofun
  | bare m => exact nofun
  | document d => exact List.forall_mem_singleton.mpr ⟨t, h⟩
  | entry e => exact List.forall_mem_singleton.mpr ⟨t, h⟩
  | item i => exact List.forall_mem_singleton.mpr ⟨t, h⟩
  | map m es =>
      obtain ⟨items, hitems, -⟩ := bind_eq_ok.mp h
      refine List.forall_mem_map.mpr fun e he => ?_
      obtain ⟨i, hi, -⟩ := exists_of_forall₂ (declaredItems_eq_ok hitems) _ (List.mem_map_of_mem he)
      exact ⟨i.2, hi⟩
  | array m is =>
      cases is with
      | nil => exact nofun
      | cons i is =>
          obtain ⟨item, hitem, -⟩ := bind_eq_ok.mp h
          exact List.forall_mem_singleton.mpr ⟨item, hitem⟩

/-! ## Annotations whose arguments are refused -/

/-- The annotation of a name on a node. -/
def annotation? (name : Text) (n : Node) : Option Annotation :=
  n.mark?.bind (·.find? name)

theorem carries_eq (name : Text) (n : Node) : n.carries name = (n.annotation? name).isSome := by
  unfold carries annotation?
  cases n.mark? <;> rfl

theorem resolveType_eq (n : Node) :
    n.resolveType = do return (Override.select (← n.overrides)).bind Override.newType := by
  unfold resolveType overrides
  cases n.mark? <;> rfl

/-- The overrides on a node are read from two annotations, one after the
other. -/
theorem overrides_eq (n : Node) :
    n.overrides = do
      let first ← Override.readOne (Override.ofType n.position)
        (n.annotation? AnnotationName.schemaType)
      let second ← Override.readOne (Override.ofNullable n.position · n.firstType)
        (n.annotation? AnnotationName.schemaNullable)
      return first ++ second := by
  unfold overrides annotation? position
  cases n.mark? with
  | none => rfl
  | some m => exact Override.collect_eq m n.firstType

/-- Reading the annotations fails as one of them does. -/
theorem overrides_eq_error {n : Node} {x : Failure} (h : n.overrides = .error x) :
    (∃ a, n.annotation? AnnotationName.schemaType = some a ∧
        Override.ofType n.position a = .error x) ∨
      ∃ a, n.annotation? AnnotationName.schemaNullable = some a ∧
        Override.ofNullable n.position a n.firstType = .error x := by
  rw [overrides_eq] at h
  rcases bind_eq_error.mp h with h | ⟨_, _, h⟩
  · exact .inl (Override.readOne_eq_error h)
  · rcases bind_eq_error.mp h with h | ⟨_, _, h⟩
    · exact .inr (Override.readOne_eq_error h)
    · cases h

/-- If the annotations can be read, so can each of them, and nothing is read
besides. -/
theorem overrides_eq_ok {n : Node} {os : List Override} (h : n.overrides = .ok os) :
    (∀ a, n.annotation? AnnotationName.schemaType = some a →
        ∃ o, Override.ofType n.position a = .ok o) ∧
      (∀ a, n.annotation? AnnotationName.schemaNullable = some a →
        ∃ o, Override.ofNullable n.position a n.firstType = .ok o) ∧
      ∀ o ∈ os,
        (∃ a, n.annotation? AnnotationName.schemaType = some a ∧
          Override.ofType n.position a = .ok o) ∨
          ∃ a, n.annotation? AnnotationName.schemaNullable = some a ∧
            Override.ofNullable n.position a n.firstType = .ok o := by
  rw [overrides_eq] at h
  obtain ⟨first, hfirst, h⟩ := bind_eq_ok.mp h
  obtain ⟨second, hsecond, h⟩ := bind_eq_ok.mp h
  cases h
  obtain ⟨htype, hofType⟩ := Override.readOne_eq_ok hfirst
  obtain ⟨hnullable, hofNullable⟩ := Override.readOne_eq_ok hsecond
  exact ⟨htype, hnullable, fun o ho => (List.mem_append.mp ho).imp (hofType o) (hofNullable o)⟩

/-- Whether a node carries an annotation whose arguments are refused, with this
failure. What lets a node be null is also refused where there is no value; of
which type the value is does not matter. -/
inductive Rejects (n : Node) (x : Failure) : Prop
  | type {a : Annotation} (stands : n.annotation? AnnotationName.schemaType = some a)
      (refused : Override.ofType n.position a = .error x)
  | nullable {a : Annotation} (stands : n.annotation? AnnotationName.schemaNullable = some a)
      (refused : Override.ofNullable n.position a (n.children.head?.map fun _ => .ok default) =
        .error x)

/-- Whether a node carries an annotation whose arguments are refused. -/
def Malformed (n : Node) : Prop := ∃ x, n.Rejects x

theorem firstType_present (n : Node) :
    (n.firstType.map fun _ => (.ok default : Except Failure SchemaType)) =
      n.children.head?.map fun _ => .ok default := by
  rw [firstType, Option.map_map]
  rfl

theorem firstType_eq_some {n : Node} {r : Except Failure SchemaType}
    (h : n.firstType = some r) : ∃ c, n.children.head? = some c ∧ inferType n.position c = r :=
  Option.map_eq_some_iff.mp h

/-- Why the annotations of a node cannot be read: one of them is refused, or
the first value is asked for a type and has none. -/
theorem resolveType_eq_error {n : Node} {x : Failure} (h : n.resolveType = .error x) :
    n.Rejects x ∨ n.carries AnnotationName.schemaNullable = true ∧
      ∃ c, n.children.head? = some c ∧ inferType n.position c = .error x := by
  rw [resolveType_eq] at h
  rcases bind_eq_error.mp h with h | ⟨_, _, h⟩
  · rcases overrides_eq_error h with ⟨a, ha, h⟩ | ⟨a, ha, h⟩
    · exact .inl (.type ha h)
    · rcases Override.ofNullable_eq_error h with h | h
      · rw [firstType_present] at h
        exact .inl (.nullable ha h)
      · have hcarries : n.carries AnnotationName.schemaNullable = true := by
          rw [carries_eq, ha]
          rfl
        exact .inr ⟨hcarries, firstType_eq_some h⟩
  · cases h

/-- If the annotations of a node can be read, none is refused, and the first
value has a type if it is asked for one. -/
theorem resolveType_eq_ok {n : Node} {r : Option SchemaType} (h : n.resolveType = .ok r) :
    ¬ n.Malformed ∧ (n.carries AnnotationName.schemaNullable = true →
      ∀ c, n.children.head? = some c → ∃ t, inferType n.position c = .ok t) := by
  rw [resolveType_eq] at h
  obtain ⟨os, hos, -⟩ := bind_eq_ok.mp h
  obtain ⟨htype, hnullable, -⟩ := overrides_eq_ok hos
  constructor
  · rintro ⟨x, ⟨ha, hrefused⟩ | ⟨ha, hrefused⟩⟩
    · obtain ⟨o, ho⟩ := htype _ ha
      rw [ho] at hrefused
      cases hrefused
    · obtain ⟨o, ho⟩ := hnullable _ ha
      rw [← firstType_present] at hrefused
      exact (Override.ofNullable_eq_ok ho).2 x hrefused
  · intro hcarries c hc
    rw [carries_eq] at hcarries
    obtain ⟨a, ha⟩ := Option.isSome_iff_exists.mp hcarries
    obtain ⟨o, ho⟩ := hnullable a ha
    obtain ⟨⟨t, ht, -⟩, -⟩ := Override.ofNullable_eq_ok ho
    rw [firstType, hc] at ht
    exact ⟨t, Option.some.inj ht⟩

/-- What the annotations of a node decide: that it accepts anything, or what
its first value accepts and null. -/
theorem resolveType_eq_some {n : Node} {t : SchemaType} (h : n.resolveType = .ok (some t)) :
    (∃ p, t = .any p .null) ∨ n.carries AnnotationName.schemaNullable = true ∧
      ∃ c wrapped, n.children.head? = some c ∧ inferType n.position c = .ok wrapped ∧
        t = .nullable n.position wrapped := by
  rw [resolveType_eq] at h
  obtain ⟨os, hos, h⟩ := bind_eq_ok.mp h
  obtain ⟨o, hselected, hnew⟩ := Option.bind_eq_some_iff.mp (Except.ok.inj h)
  rcases (overrides_eq_ok hos).2.2 o (Override.mem_of_select hselected) with
    ⟨a, -, ho⟩ | ⟨a, ha, ho⟩
  · obtain ⟨isAny, rfl⟩ := Override.ofType_eq_ok ho
    cases isAny <;> cases hnew
    exact .inl ⟨n.position, rfl⟩
  · obtain ⟨⟨wrapped, hwrapped, rfl⟩, -⟩ := Override.ofNullable_eq_ok ho
    obtain ⟨c, hc, htype⟩ := firstType_eq_some hwrapped
    have hcarries : n.carries AnnotationName.schemaNullable = true := by
      rw [carries_eq, ha]
      rfl
    cases hnew
    exact .inr ⟨hcarries, c, wrapped, hc, htype, rfl⟩

end Node

end Stencil
