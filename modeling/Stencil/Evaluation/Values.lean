import Stencil.Evaluation.Discovery

/-!
# Collecting data values

The files that declare data values are found and handed, together with
overlays given by the caller and the schema, to the pipeline that merges
and validates them.

## Main definitions

* `CollectedValues` — the merged values, and those for nested libraries.
* `Loader.collectValues` — collecting them.
-/

namespace Stencil

/-- The outcome of collecting data values. -/
structure CollectedValues where
  values : DataValues
  libraryValues : List DataValues

/-- The merged data values of the library at hand and those addressed to
nested libraries. -/
def Loader.collectValues {σ : Type} (l : Loader σ) (overlays : List DataValues)
    (schema : Schema) : Run σ CollectedValues := do
  let files ← l.discoverFiles AnnotationName.dataValues
  Run.inSpan "merge" <|
    Run.wrap (fun m => .reported .valuesResolution ("Resolving data values: " ++ m) []) do
      let (values, libraryValues) ← Run.perform <|
        l.collaborators.resolveValues files overlays schema l.config.valuesPolicy
      return ⟨values, libraryValues⟩

end Stencil
