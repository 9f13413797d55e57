import Stencil.Evaluation.Discovery

/-!
# Collecting schemas

The schema documents of a library are found, evaluated without data values,
and joined by overlays given by the caller. Those addressed to a nested
library are kept apart; all others are merged, in order, into the schema of
the library at hand. When schemas are switched off, schema files are still
taken out of the output, and a warning names the first of them.

## Main definitions

* `CollectedSchemas` — the schema, the schemas for nested libraries, and
  warnings.
* `Loader.schemaDocuments` — the schemas that files declare.
* `Loader.mergeSchemas` — the merged schema document.
* `Loader.collectSchemas` — all of it.
-/

namespace Stencil

/-- The outcome of collecting schemas. -/
structure CollectedSchemas where
  schema : Schema
  librarySchemas : List DocumentSchema
  warnings : List Text

/-- The warning about a schema file that has no effect. -/
def disabledWarning (path : Text) : Text :=
  "Schema document was detected (" ++ path ++ "), but schema processing is disabled"

namespace Loader

variable {σ : Type}

/-- The schemas that an evaluated file declares. -/
def declaredSchemas (docs : List Document) : Except Failure (List DocumentSchema) := do
  let (matched, _) ← Documents.split AnnotationName.schemaMatch docs
  matched.mapM DocumentSchema.ofDocument

/-- The schemas that some files declare. The files are evaluated apart from
the root, and with an empty ledger. -/
def evaluateSchemas (engine : Engine σ) : List Located → Run σ (List DocumentSchema)
  | [] => return []
  | f :: fs => do
    let docs ← Run.wrap (.evaluation f.path) do
      let e ← Run.perform (engine.yaml ⟨f.library, .empty [] []⟩ f.file)
      let _ ← Run.ofExcept ((Ledger.ofList []).markAll e.consumed)
      return e.content
    let schemas ← Run.ofExcept (declaredSchemas docs)
    return schemas ++ (← evaluateSchemas engine fs)

/-- The schemas that schema files declare. -/
def schemaDocuments (l : Loader σ) (files : List Located) : Run σ (List DocumentSchema) :=
  Run.inSpan "evaluate" do
    let engine ← Run.perform (l.collaborators.newEngine ⟨.empty, [], []⟩)
    evaluateSchemas engine files

/-- A document with some patches applied one after another. -/
def mergeInto (l : Loader σ) (base : Document) : List Document → Run σ Document
  | [] => return base
  | patch :: patches => do
    let merged ← Run.wrap
      (fun m => .reported .schemaMerge ("Merging schema documents: " ++ m) [])
      (Run.perform (l.collaborators.merge base patch))
    mergeInto l merged patches

/-- The schema of the documents addressed to the library at hand. -/
def mergeSchemas (l : Loader σ) : List Document → Run σ Schema
  | [] => return .null
  | base :: patches => do
    let merged ← Run.inSpan "merge" do
      let merged ← mergeInto l base patches
      Run.annotate "documents" (patches.length + 1)
      return merged
    return .document (← Run.ofExcept (DocumentSchema.ofDocument merged))

/-- The schema of the library at hand and those for nested libraries. -/
def collectSchemas (l : Loader σ) (overlays : List DocumentSchema) : Run σ CollectedSchemas := do
  let files ← l.discoverFiles AnnotationName.schemaMatch
  if l.config.schemaEnabled then
    let declared ← l.schemaDocuments files
    let (addressed, own) := (declared ++ overlays).partition (·.hasLibraryRef)
    return ⟨← l.mergeSchemas (own.map (·.source)), addressed, []⟩
  else
    return ⟨.permissive, [], (files.head?.map fun f => disabledWarning f.path).toList⟩

end Loader

end Stencil
