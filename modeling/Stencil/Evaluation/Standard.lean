import Stencil.Document.Merge
import Stencil.Evaluation.Run

/-!
# Standard pipelines

Two collaborators can be had ready-made, given a way to merge documents:
the pipeline that resolves data values, and the one that applies overlay
documents.

## Main definitions

* `Standard.resolveValues` — data values from defaults, files and overlays.
* `Standard.applyOverlays` — overlay documents merged into those before
  them.
-/

namespace Stencil.Standard

variable {σ : Type} (merge : Document → Document → Action σ Document)

/-- A document that says nothing. -/
def emptyDocument : Document := ⟨.ofPosition .unknown, .map (.ofPosition .unknown) []⟩

/-- Data values in the order of their weight: the defaults of the schema,
declared documents, and overlays that are not addressed to a nested
library. The schema has to accept what comes of it. -/
def resolveValues (declared : List Document) (overlays : List DataValues) (schema : Schema) :
    Action σ (DataValues × List DataValues) := do
  let base := (← liftExcept schema.defaultValues).getD emptyDocument
  let own := (overlays.filter fun v => !v.hasLibraryRef).filterMap (·.doc)
  let merged ← (declared ++ own).foldlM merge base
  match ← liftExcept (schema.validate merged) with
  | [] =>
    return (⟨DataValues.ownId, merged, "merged data values", none⟩,
      overlays.filter (·.hasLibraryRef))
  | complaints => throw (.fault (.rejected complaints))

/-- Documents in which every overlay is merged into the last document that
was kept; an overlay that comes first is kept. The kept ones are given in
reverse order. -/
def foldOverlays : List Document → List Document → Action σ (List Document)
  | kept, [] => return kept.reverse
  | [], d :: ds => foldOverlays [d] ds
  | last :: kept, d :: ds => do
    if d.mark.carries AnnotationName.overlay then
      foldOverlays ((← merge last d) :: kept) ds
    else foldOverlays (d :: last :: kept) ds

/-- Document sets with their overlays applied. -/
def applyOverlays (sets : DocumentSets) : Action σ DocumentSets :=
  sets.mapM fun (f, docs) => return (f, ← foldOverlays merge [] docs)

end Stencil.Standard
