import Stencil.Proofs.Schema.Annotated

/-!
# Which type annotations decide

The annotations of a node are read in a fixed order, all of them before one is
selected. So an annotation that cannot be read keeps another one from deciding,
even one that would have been selected: the value of a node that may be null
needs a type also where the node accepts anything. Which type is decided, and
which error stands in its way, is a table of what the two annotations say.

The table is a relation, and a node stands in it with exactly one result: every
node is in some row of the table, and in each row the result is the one that
the node resolves to.

## Main definitions

* `Override.Offends`, `Override.Asks` — keywords that `schema/type` refuses, and
  keywords that it understands.
* `Node.Wishes`, `Node.Wraps` — what `schema/type` asks for on a node, and what
  `schema/nullable` wraps.
* `Node.Decides` — the table.

## Main results

* `Override.ofType_of_offends`, `Override.ofType_of_asks` — reading keywords up
  to the first that is refused, or to the last.
* `Node.exists_decides`, `Node.Decides.resolveType` — every node is in the
  table, and with what it resolves to.
* `annotations_decide` — what decides a type, and what has no part in it.
-/

namespace Stencil

namespace Override

/-! ## The keywords of one annotation -/

/-- Keywords that `schema/type` understands. -/
def Understood (kw : Text × Value) : Prop := kw.1 = "any" ∧ ∃ b, kw.2 = .bool b

/-- What a value is called where another one is wanted: by the name of its type. -/
def calledBy : Value → Text
  | .null => "NoneType"
  | .bool _ => "bool"
  | .int _ => "int"
  | .float _ => "float"
  | .str _ => "str"
  | .bytes _ => "bytes"
  | .date _ => "date"
  | .list _ => "list"
  | .tuple _ => "tuple"
  | .map _ => "dict"
  | .object _ => "Opaque"
  | .node _ => "Node"

/-- Keywords that `schema/type` refuses, and the error for the first one that it
does not understand: there are none, or one has another name, or a value that is
no truth value. -/
inductive Offends (p : Position) : List (Text × Value) → Error → Prop
  | missing :
      Offends p [] <| .annotationSyntax ⟨some p,
        "expected @schema/type annotation to have keyword argument and value",
        "valid keyword argument and value", "missing keyword argument and value",
        ["Supported key-value pairs are 'any=True', 'any=False'"]⟩
  | name {before after : List (Text × Value)} {name : Text} {v : Value}
      (understood : ∀ kw ∈ before, Understood kw) (other : name ≠ "any") :
      Offends p (before ++ (name, v) :: after) <| .annotationSyntax ⟨some p,
        "unknown @schema/type annotation keyword argument", "A valid kwarg", name,
        ["Supported kwargs are 'any'"]⟩
  | value {before after : List (Text × Value)} {v : Value}
      (understood : ∀ kw ∈ before, Understood kw) (other : ∀ b, v ≠ .bool b) :
      Offends p (before ++ (("any" : Text), v) :: after) <| .annotationSyntax ⟨some p,
        "unknown @schema/type annotation keyword argument", "bool", calledBy v,
        ["Supported kwargs are 'any'"]⟩

/-- Keywords that `schema/type` understands, and what the last of them says. -/
def Asks (kws : List (Text × Value)) (isAny : Bool) : Prop :=
  (∀ kw ∈ kws, Understood kw) ∧ kws.getLast? = some (("any" : Text), .bool isAny)

theorem missingKeyword_eq (p : Position) :
    missingKeyword p = .annotationSyntax ⟨some p,
      "expected @schema/type annotation to have keyword argument and value",
      "valid keyword argument and value", "missing keyword argument and value",
      ["Supported key-value pairs are 'any=True', 'any=False'"]⟩ := by
  rfl

theorem badKeyword_eq (p : Position) (expected found : Text) :
    badKeyword p expected found = .annotationSyntax ⟨some p,
      "unknown @schema/type annotation keyword argument", expected, found,
      ["Supported kwargs are 'any'"]⟩ := by
  rfl

theorem typeName_eq (v : Value) : v.kind.typeName = calledBy v := by
  cases v <;> rfl

/-- Keywords that are understood only change what has been said last. -/
theorem lastAny_append (p : Position) {before : List (Text × Value)}
    (understood : ∀ kw ∈ before, Understood kw) (after : List (Text × Value)) :
    ∀ isAny, ∃ b, ((anyKeyword, .bool isAny) :: before).getLast? = some (anyKeyword, .bool b) ∧
      lastAny p isAny (before ++ after) = lastAny p b after := by
  induction before with
  | nil => exact fun isAny => ⟨isAny, rfl, rfl⟩
  | cons kw before ih =>
      intro isAny
      obtain ⟨⟨hname, b, hvalue⟩, rest⟩ := List.forall_mem_cons.mp understood
      obtain ⟨name, v⟩ := kw
      cases hname
      cases hvalue
      obtain ⟨b', hlast, hrest⟩ := ih rest b
      exact ⟨b', hlast, hrest⟩

variable {p : Position} {kws : List (Text × Value)}

/-- Errors about keywords are syntax errors in the place of the node. -/
theorem Offends.syntaxAt {e : Error} (h : Offends p kws e) :
    ∃ d, e = .annotationSyntax d ∧ d.position = some p := by
  cases h <;> exact ⟨_, rfl, rfl⟩

/-- A keyword that is refused, whatever has been said before, is the first to be
refused after some that are understood. -/
theorem ofType_of_refused {before after : List (Text × Value)} {kw : Text × Value} {e : Error}
    (understood : ∀ kw ∈ before, Understood kw)
    (refused : ∀ b, lastAny p b (kw :: after) = Error.throw e) (args : List Value) :
    ofType p ⟨args, before ++ kw :: after⟩ = Error.throw e := by
  obtain ⟨b, -, hread⟩ := lastAny_append p understood (kw :: after) false
  rw [ofType, if_neg (by simp), hread, refused]
  rfl

/-- **Keywords that offend** are refused with their error. -/
theorem ofType_of_offends {e : Error} (h : Offends p kws e) (args : List Value) :
    ofType p ⟨args, kws⟩ = Error.throw e := by
  cases h with
  | missing => rw [← missingKeyword_eq]; rfl
  | @name before after name v understood other =>
      rw [← badKeyword_eq]
      refine ofType_of_refused understood (fun b => ?_) args
      cases v <;> exact if_pos other
  | @value before after v understood other =>
      rw [← badKeyword_eq, ← typeName_eq]
      refine ofType_of_refused understood (fun b => ?_) args
      cases v with
      | bool b => exact absurd rfl (other b)
      | _ => rfl

/-- **Keywords that are understood** say what the last of them says. -/
theorem ofType_of_asks {isAny : Bool} (h : Asks kws isAny) (args : List Value) :
    ofType p ⟨args, kws⟩ = .ok (.type isAny p) := by
  obtain ⟨understood, hlast⟩ := h
  have present : kws ≠ [] := fun none => by rw [none] at hlast; cases hlast
  obtain ⟨b, hlast', hread⟩ := lastAny_append p understood [] false
  rw [List.getLast?_cons_of_ne_nil present, hlast] at hlast'
  cases hlast'
  rw [List.append_nil] at hread
  rw [ofType, if_neg (by simpa using present), hread]
  rfl

/-- Keywords offend, or they are understood. -/
theorem offends_or_asks (p : Position) (kws : List (Text × Value)) :
    (∃ e, Offends p kws e) ∨ ∃ isAny, Asks kws isAny := by
  classical
  cases found : kws.find? fun kw => ¬ Understood kw with
  | some kw =>
      obtain ⟨refused, before, after, rfl, understood⟩ := List.find?_eq_some_iff_append.mp found
      have understood' : ∀ kw ∈ before, Understood kw := by simpa using understood
      obtain ⟨name, v⟩ := kw
      by_cases hname : name = "any"
      · subst hname
        have other : ∀ b, v ≠ .bool b := by simpa [Understood] using refused
        exact .inl ⟨_, .value understood' other⟩
      · exact .inl ⟨_, .name understood' hname⟩
  | none =>
      have understood : ∀ kw ∈ kws, Understood kw := by simpa using found
      cases hlast : kws.getLast? with
      | none =>
          rw [List.getLast?_eq_none_iff] at hlast
          subst hlast
          exact .inl ⟨_, .missing⟩
      | some kw =>
          obtain ⟨name, v⟩ := kw
          obtain ⟨rfl, b, rfl⟩ := understood _ (List.mem_of_getLast? hlast)
          exact .inr ⟨b, understood, hlast⟩

end Override

namespace Node

variable {n : Node}

/-! ## What each annotation of a node says -/

/-- What `schema/type` asks for on a node: nothing where it is not, and else
whether the node accepts anything. -/
inductive Wishes (n : Node) : Option Bool → Prop
  | silent (absent : n.annotation? AnnotationName.schemaType = none) : n.Wishes none
  | asked {a : Annotation} {isAny : Bool}
      (stands : n.annotation? AnnotationName.schemaType = some a)
      (asks : Override.Asks a.kwargs isAny) : n.Wishes (some isAny)

/-- What `schema/nullable` wraps on a node: nothing where it is not, and else the
type of the first value. It takes no keywords and needs a value, and the value
needs a type. -/
inductive Wraps (n : Node) : Except Failure (Option SchemaType) → Prop
  | silent (absent : n.annotation? AnnotationName.schemaNullable = none) : n.Wraps (.ok none)
  | keywords {a : Annotation} (stands : n.annotation? AnnotationName.schemaNullable = some a)
      (present : a.kwargs ≠ []) :
      n.Wraps <| Error.throw <| .annotationSyntax ⟨some n.position,
        "expected @schema/nullable annotation to not contain any keyword arguments",
        "no keyword arguments", Text.joinWith ", " (a.kwargs.map (·.1)), []⟩
  | valueless {a : Annotation} (stands : n.annotation? AnnotationName.schemaNullable = some a)
      (plain : a.kwargs = []) (valueless : n.children = []) :
      n.Wraps <| Error.throw <| .annotationSyntax ⟨some n.position,
        "expected @schema/nullable annotation to be attached to a node with a value",
        "a declared value", "no value", []⟩
  | untyped {a : Annotation} {c : Node} {x : Failure}
      (stands : n.annotation? AnnotationName.schemaNullable = some a) (plain : a.kwargs = [])
      (first : n.children.head? = some c) (untyped : inferType n.position c = .error x) :
      n.Wraps (.error x)
  | typed {a : Annotation} {c : Node} {t : SchemaType}
      (stands : n.annotation? AnnotationName.schemaNullable = some a) (plain : a.kwargs = [])
      (first : n.children.head? = some c) (typed : inferType n.position c = .ok t) :
      n.Wraps (.ok (some t))

/-- What both annotations of a node decide, case by case. -/
inductive Decides (n : Node) : Except Failure (Option SchemaType) → Prop
  | refused {a : Annotation} {e : Error}
      (stands : n.annotation? AnnotationName.schemaType = some a)
      (offends : Override.Offends n.position a.kwargs e) : n.Decides (Error.throw e)
  | failed {isAny : Option Bool} {x : Failure} (wishes : n.Wishes isAny)
      (wraps : n.Wraps (.error x)) : n.Decides (.error x)
  | any {t : Option SchemaType} (wishes : n.Wishes (some true)) (wraps : n.Wraps (.ok t)) :
      n.Decides (.ok (some (.any n.position .null)))
  | shadowed {t : Option SchemaType} (wishes : n.Wishes (some false)) (wraps : n.Wraps (.ok t)) :
      n.Decides (.ok none)
  | nullable {t : SchemaType} (wishes : n.Wishes none) (wraps : n.Wraps (.ok (some t))) :
      n.Decides (.ok (some (.nullable n.position t)))
  | undecided (wishes : n.Wishes none) (wraps : n.Wraps (.ok none)) : n.Decides (.ok none)

/-- `schema/type` on a node is refused, or it asks for something. -/
theorem offends_or_wishes (n : Node) :
    (∃ a e, n.annotation? AnnotationName.schemaType = some a ∧
        Override.Offends n.position a.kwargs e) ∨
      ∃ isAny, n.Wishes isAny := by
  cases stands : n.annotation? AnnotationName.schemaType with
  | none => exact .inr ⟨none, .silent stands⟩
  | some a =>
      rcases Override.offends_or_asks n.position a.kwargs with ⟨e, offends⟩ | ⟨isAny, asks⟩
      · exact .inl ⟨a, e, rfl, offends⟩
      · exact .inr ⟨some isAny, .asked stands asks⟩

/-- `schema/nullable` on a node wraps something, or nothing, or is refused. -/
theorem exists_wraps (n : Node) : ∃ r, n.Wraps r := by
  cases stands : n.annotation? AnnotationName.schemaNullable with
  | none => exact ⟨_, .silent stands⟩
  | some a =>
      by_cases plain : a.kwargs = []
      · cases first : n.children.head? with
        | none => exact ⟨_, .valueless stands plain (List.head?_eq_none_iff.mp first)⟩
        | some c =>
            cases typed : inferType n.position c with
            | error x => exact ⟨_, .untyped stands plain first typed⟩
            | ok t => exact ⟨_, .typed stands plain first typed⟩
      · exact ⟨_, .keywords stands plain⟩

/-- **The annotations of every node** decide something. -/
theorem exists_decides (n : Node) : ∃ r, n.Decides r := by
  rcases n.offends_or_wishes with ⟨a, e, stands, offends⟩ | ⟨isAny, wishes⟩
  · exact ⟨_, .refused stands offends⟩
  · obtain ⟨r, wraps⟩ := n.exists_wraps
    cases r with
    | error x => exact ⟨_, .failed wishes wraps⟩
    | ok t =>
        match isAny, t, wishes, wraps with
        | some true, _, wishes, wraps => exact ⟨_, .any wishes wraps⟩
        | some false, _, wishes, wraps => exact ⟨_, .shadowed wishes wraps⟩
        | none, some t, wishes, wraps => exact ⟨_, .nullable wishes wraps⟩
        | none, none, wishes, wraps => exact ⟨_, .undecided wishes wraps⟩

/-! ## What is read -/

/-- What `schema/type` asks for is what is read. -/
theorem Wishes.read {isAny : Option Bool} (h : n.Wishes isAny) :
    Override.readOne (Override.ofType n.position) (n.annotation? AnnotationName.schemaType) =
      .ok (isAny.map (Override.type · n.position)).toList := by
  cases h with
  | silent absent => rw [absent]; rfl
  | @asked a isAny stands asks =>
      rw [stands]
      show (do return [← Override.ofType n.position a]) = _
      rw [Override.ofType_of_asks asks a.args]
      rfl

/-- What `schema/nullable` wraps is what is read. -/
theorem Wraps.read {r : Except Failure (Option SchemaType)} (h : n.Wraps r) :
    Override.readOne (Override.ofNullable n.position · n.firstType)
        (n.annotation? AnnotationName.schemaNullable) =
      r.map fun t => (t.map (Override.nullable · n.position)).toList := by
  unfold Override.ofNullable
  cases h with
  | silent absent => rw [absent]; rfl
  | keywords stands present =>
      rw [stands, Override.readOne, if_pos (by simpa using present)]
      rfl
  | valueless stands plain valueless =>
      rw [stands, Override.readOne, if_neg (by simp [plain]), firstType, valueless]
      rfl
  | untyped stands plain first untyped =>
      rw [stands, Override.readOne, if_neg (by simp [plain]), firstType, first, Option.map_some,
        untyped]
      rfl
  | typed stands plain first typed =>
      rw [stands, Override.readOne, if_neg (by simp [plain]), firstType, first, Option.map_some,
        typed]
      rfl

/-- **What annotations decide** is the type that they resolve to. -/
theorem Decides.resolveType {r : Except Failure (Option SchemaType)} (h : n.Decides r) :
    n.resolveType = r := by
  rw [resolveType_eq, overrides_eq]
  cases h with
  | @refused a e stands offends =>
      rw [stands, Override.readOne, Override.ofType_of_offends offends a.args]
      rfl
  | failed wishes wraps => rw [wishes.read, wraps.read]; rfl
  | @any t wishes wraps =>
      rw [wishes.read, wraps.read]
      cases t <;> rfl
  | @shadowed t wishes wraps =>
      rw [wishes.read, wraps.read]
      cases t <;> rfl
  | nullable wishes wraps => rw [wishes.read, wraps.read]; rfl
  | undecided wishes wraps => rw [wishes.read, wraps.read]; rfl

/-- The type that annotations resolve to is the one that they decide. -/
theorem resolveType_iff (n : Node) (r : Except Failure (Option SchemaType)) :
    n.resolveType = r ↔ n.Decides r := by
  constructor
  · rintro rfl
    obtain ⟨r, decides⟩ := n.exists_decides
    rw [decides.resolveType]
    exact decides
  · exact Decides.resolveType

/-- Where nothing is decided there is a syntax error in the place of the node,
or the error of its first value. -/
theorem Decides.error {x : Failure} (h : n.Decides (.error x)) :
    (∃ d, x = .error (.annotationSyntax d) none ∧ d.position = some n.position) ∨
      n.carries AnnotationName.schemaNullable = true ∧
        ∃ c, n.children.head? = some c ∧ inferType n.position c = .error x := by
  cases h with
  | refused stands offends =>
      obtain ⟨d, rfl, place⟩ := offends.syntaxAt
      exact .inl ⟨d, rfl, place⟩
  | failed wishes wraps =>
      cases wraps with
      | keywords stands present => exact .inl ⟨_, rfl, rfl⟩
      | valueless stands plain valueless => exact .inl ⟨_, rfl, rfl⟩
      | @untyped a c x stands plain first untyped =>
          have hcarries : n.carries AnnotationName.schemaNullable = true := by
            rw [carries_eq, stands]
            rfl
          exact .inr ⟨hcarries, c, first, untyped⟩

end Node

/-- **What annotations decide.** A node resolves to what the two annotations on
it decide. If that is an error, it is a syntax error in the place of the node,
or the error of a first value that has no type. Neither the order of the
annotations nor other annotations have a part in it. -/
theorem annotations_decide (n : Node) :
    (∀ r, n.resolveType = r ↔ n.Decides r) ∧
      (∀ x, n.resolveType = .error x →
        (∃ d, x = .error (.annotationSyntax d) none ∧ d.position = some n.position) ∨
          n.carries AnnotationName.schemaNullable = true ∧
            ∃ c, n.children.head? = some c ∧ Node.inferType n.position c = .error x) ∧
      ∀ as bs : List (Text × Annotation), (as.map (·.1)).Nodup →
        (as.filter fun a => a.1 ∈ Override.names).Perm (bs.filter fun b => b.1 ∈ Override.names) →
          (n.withAnnotations as).resolveType = (n.withAnnotations bs).resolveType :=
  ⟨n.resolveType_iff, fun _ h => ((n.resolveType_iff _).mp h).error,
    fun _ _ differ perm => n.resolveType_of_perm differ perm⟩

/-- A value that accepts anything because it is asked to in the end, and a value
that is not asked anything. -/
theorem annotations_decide_any :
    let any : Annotation := ⟨[], [("any", .bool false), ("any", .bool true)]⟩
    let plain : Annotation := ⟨[], []⟩
    let port (as : List (Text × Annotation)) : Node := .item ⟨⟨.unknown, as⟩, .plain (.int 80)⟩
    let written : List (Text × Annotation) :=
      [(AnnotationName.schemaNullable, plain), ("doc", plain), (AnnotationName.schemaType, any)]
    let sorted : List (Text × Annotation) :=
      [(AnnotationName.schemaType, any), (AnnotationName.schemaNullable, plain)]
    (port written).resolveType = .ok (some (.any .unknown .null)) ∧
      (port sorted).resolveType = (port written).resolveType ∧
      ∃ d, (port [(AnnotationName.schemaType, plain)]).resolveType =
          .error (.error (.annotationSyntax d) none) ∧ d.position = some .unknown := by
  intro any plain port written sorted
  have asks : Override.Asks any.kwargs true :=
    ⟨by simp [any, Override.Understood], rfl⟩
  have decides : (port written).Decides (.ok (some (.any .unknown .null))) :=
    .any (.asked rfl asks) (.typed rfl rfl rfl rfl)
  have differ : (sorted.map (·.1)).Nodup := by decide
  have perm : (sorted.filter fun a => a.1 ∈ Override.names).Perm
      (written.filter fun b => b.1 ∈ Override.names) :=
    .swap _ _ _
  have refused : (port [(AnnotationName.schemaType, plain)]).resolveType =
      Error.throw (Override.missingKeyword .unknown) := by rfl
  refine ⟨((annotations_decide _).1 _).mpr decides,
    (annotations_decide (port written)).2.2 _ _ differ perm, ?_⟩
  rcases (annotations_decide _).2.1 _ refused with ⟨d, hd, place⟩ | ⟨carries, -⟩
  · exact ⟨d, by rw [refused, Error.throw, hd], place⟩
  · cases carries

/-- What lets a node be null has no effect beside `any=False`. -/
example :
    (Node.item ⟨⟨.unknown, [(AnnotationName.schemaType, ⟨[], [("any", .bool false)]⟩),
      (AnnotationName.schemaNullable, ⟨[], []⟩)]⟩, .plain (.int 80)⟩).resolveType = .ok none := by
  rfl

end Stencil
