import Stencil.Schema.Check
import Stencil.Schema.Infer

/-!
# Schemas

A schema is declared by a document, or absent because no document declares
one, or switched off. Only the first sort restricts anything: it reports
where a document leaves the declared type, and it has defaults.

## Main definitions

* `DocumentSchema`, `DocumentSchema.ofDocument` — the schema a document
  declares.
* `Schema` — the three sorts.
* `Schema.validate`, `Schema.defaultValues` — violations and defaults.
-/

namespace Stencil

/-- A schema that a document declares. -/
structure DocumentSchema where
  source : Document
  type : SchemaType
  deriving Repr

namespace DocumentSchema

/-- The schema of a document. -/
def ofDocument (d : Document) : Except Failure DocumentSchema := do
  return ⟨d, ← Node.heldType d⟩

/-- Whether a schema is addressed to a nested library. -/
def hasLibraryRef (s : DocumentSchema) : Bool :=
  s.source.mark.carries AnnotationName.libraryRef

/-- The nested library that a schema is addressed to. -/
def libraryRef (s : DocumentSchema) : Option Text := do
  let a ← s.source.mark.find? AnnotationName.libraryRef
  return (← a.args.head?).display

/-- The violations of a document, or of null where there is none. -/
def validate (s : DocumentSchema) (d : Option Document) : Except Failure (List Text) := do
  let v ← match d with
    | some d => d.value.toPlain
    | none => pure .null
  s.type.check [] v

/-- The defaults of a schema as a document in its place. -/
def defaultValues (s : DocumentSchema) : Except Failure Document := do
  let v ← s.type.defaultValue
  return ⟨.ofPosition s.source.mark.position, Node.ofPlain (.ofPosition .unknown) v⟩

/-- A schema in words. -/
def text (s : DocumentSchema) : Text :=
  let ref :=
    match s.libraryRef with
    | some r => r.quoted
    | none => "None"
  "DocumentSchema(source=" ++ s.source.mark.position.text ++ ", library_ref=" ++ ref ++ ")"

end DocumentSchema

/-- Schemas: declared, absent, or switched off. -/
inductive Schema where
  | document (s : DocumentSchema)
  | null
  | permissive
  deriving Repr

namespace Schema

/-- The violations of a document; only a declared schema has any. -/
def validate (s : Schema) (d : Option Document) : Except Failure (List Text) :=
  match s with
  | .document s => s.validate d
  | .null | .permissive => .ok []

/-- The defaults that a schema declares. -/
def defaultValues : Schema → Except Failure (Option Document)
  | .document s => do return some (← s.defaultValues)
  | .null | .permissive => .ok none

/-- A schema in words. -/
def text : Schema → Text
  | .document s => s.text
  | .null => "NullSchema()"
  | .permissive => "PermissiveSchema()"

end Schema

end Stencil
