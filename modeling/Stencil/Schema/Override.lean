import Stencil.Schema.Type

/-!
# Annotations that decide a type

Two annotations decide the type of a node in place of its value.
`schema/type` with `any=True` makes the node accept anything, and
`schema/nullable` lets it be null besides. When both stand on a node one of
them is selected: a `schema/type` that asks for any value comes first, then
the annotations in the order in which they are looked for. The selected
annotation decides even when it asks for nothing, so `any=False` keeps
`schema/nullable` from having an effect.

## Main definitions

* `AnnotationName` — the annotations with a meaning of their own.
* `Override` — an annotation that decides a type, after its arguments have
  been read.
* `Override.ofType`, `Override.ofNullable` — reading the arguments.
* `Override.select` — the one that decides.
* `Override.collect`, `Override.resolve` — all of a node's, and the type
  that they decide.
-/

namespace Stencil

/-! ## Names -/

namespace AnnotationName

/-- Marks a schema document. -/
def schemaMatch : Text := "schema/match"

/-- Makes a node accept any value. -/
def schemaType : Text := "schema/type"

/-- Lets a node be null. -/
def schemaNullable : Text := "schema/nullable"

/-- Marks a document of data values. -/
def dataValues : Text := "data/values"

/-- Addresses a document to a nested library. -/
def libraryRef : Text := "library/ref"

/-- Marks a document that is merged into the one before it. -/
def overlay : Text := "overlay/match"

end AnnotationName

/-- An annotation that decides a type. -/
inductive Override where
  | type (isAny : Bool) (position : Position)
  | nullable (wrapped : SchemaType) (position : Position)
  deriving Repr

namespace Override

/-! ## Reading the arguments -/

/-- The keyword that `schema/type` understands. -/
def anyKeyword : Text := "any"

/-- A problem with the annotation `schema/type`. -/
def typeProblem (p : Position) (description expected found hint : Text) : Error :=
  .annotationSyntax ⟨some p, description, expected, found, [hint]⟩

/-- The problem of a `schema/type` without keywords. -/
def missingKeyword (p : Position) : Error :=
  typeProblem p
    ("expected @" ++ AnnotationName.schemaType ++ " annotation to have keyword argument and value")
    "valid keyword argument and value" "missing keyword argument and value"
    "Supported key-value pairs are 'any=True', 'any=False'"

/-- The problem of a keyword that is not understood, or of its value. -/
def badKeyword (p : Position) (expected found : Text) : Error :=
  typeProblem p
    ("unknown @" ++ AnnotationName.schemaType ++ " annotation keyword argument")
    expected found "Supported kwargs are 'any'"

/-- The value of the last keyword, if all of them are understood. -/
def lastAny (p : Position) (isAny : Bool) : List (Text × Value) → Except Failure Bool
  | [] => .ok isAny
  | (name, v) :: rest =>
    if name ≠ anyKeyword then Error.throw (badKeyword p "A valid kwarg" name)
    else
      match v with
      | .bool b => lastAny p b rest
      | _ => Error.throw (badKeyword p "bool" v.kind.typeName)

/-- Reads the arguments of `schema/type`. -/
def ofType (p : Position) (a : Annotation) : Except Failure Override :=
  if a.kwargs.isEmpty then Error.throw (missingKeyword p)
  else do return .type (← lastAny p false a.kwargs) p

/-- A problem with the annotation `schema/nullable`. -/
def nullableProblem (p : Position) (wish expected found : Text) : Error :=
  .annotationSyntax <|
    .atPosition p
      ("expected @" ++ AnnotationName.schemaNullable ++ " annotation to " ++ wish)
      expected found

/-- Reads the arguments of `schema/nullable` on a node whose first value
has a type, or which has no value. -/
def ofNullable (p : Position) (a : Annotation)
    (valueType : Option (Except Failure SchemaType)) : Except Failure Override :=
  if !a.kwargs.isEmpty then
    Error.throw <| nullableProblem p "not contain any keyword arguments"
      "no keyword arguments" (Text.joinWith ", " (a.kwargs.map (·.1)))
  else
    match valueType with
    | none =>
      Error.throw <| nullableProblem p "be attached to a node with a value"
        "a declared value" "no value"
    | some t => do return .nullable (← t) p

/-! ## Selecting -/

/-- The rank of an override: the lowest one decides. -/
def rank : Override → Nat
  | .type true _ => 0
  | _ => 1

/-- The first item of the lowest rank. -/
def selectBy {α : Type} (override : α → Override) : List α → Option α
  | [] => none
  | a :: as =>
    some <| as.foldl (fun best b => if (override b).rank < (override best).rank then b else best) a

/-- The override that decides. -/
def select (overrides : List Override) : Option Override := selectBy id overrides

/-- The type that an override asks for, if it asks for one. -/
def newType : Override → Option SchemaType
  | .type true p => some (.any p .null)
  | .type false _ => none
  | .nullable wrapped p => some (.nullable p wrapped)

/-- The overrides of a node with a mark, in the order in which annotations
are looked for. -/
def collect (m : Mark) (valueType : Option (Except Failure SchemaType)) :
    Except Failure (List Override) := do
  let first ← match m.find? AnnotationName.schemaType with
    | some a => do pure [← ofType m.position a]
    | none => pure []
  let second ← match m.find? AnnotationName.schemaNullable with
    | some a => do pure [← ofNullable m.position a valueType]
    | none => pure []
  return first ++ second

/-- The type that the annotations of a node decide, if they decide one. -/
def resolve (m : Mark) (valueType : Option (Except Failure SchemaType)) :
    Except Failure (Option SchemaType) := do
  return (select (← collect m valueType)).bind newType

end Override

end Stencil
