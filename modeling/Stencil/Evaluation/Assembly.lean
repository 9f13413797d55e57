import Stencil.Library.Order
import Stencil.Yaml.Documents
import Stencil.Evaluation.Run

/-!
# The result of an evaluation

What the files of a library render to is put together in the order of the
files: document sets are written as YAML, texts stand as they are, and the
documents of all document sets are also given one after another. The result
does not depend on the order in which the files were evaluated, except for
the exported names, which keep it.

## Main definitions

* `OutputFile`, `Export`, `EvalResult` — the parts of a result.
* `Fragments` — rendered texts by file; document sets are by file as well.
* `assemble` — the result.
-/

namespace Stencil

/-- A rendered file. -/
structure OutputFile where
  path : Text
  data : List UInt8
  kind : FileKind
  deriving DecidableEq, Repr

/-- The names that a library file defines. -/
structure Export where
  path : Text
  symbols : Symbols
  deriving Repr

/-- The result of an evaluation. -/
structure EvalResult where
  files : List OutputFile
  docs : List Document
  exports : List Export
  deriving Repr, Inhabited

namespace EvalResult

/-- The first rendered file with a path. -/
def file? (r : EvalResult) (path : Text) : Option OutputFile := r.files.find? (·.path = path)

/-- The first exported names with a path. -/
def export? (r : EvalResult) (path : Text) : Option Export := r.exports.find? (·.path = path)

end EvalResult

/-- Rendered texts of files. -/
abbrev Fragments := List (Located × OutputFile)

/-- A document set as a rendered file. -/
def renderDocuments (f : Located) (docs : List Document) : Except Failure OutputFile := do
  let data ← wrapFault (fun m => .evaluation f.path ("marshaling template result: " ++ m))
    (Documents.serialize docs)
  return ⟨f.path, data, f.file.kind⟩

/-- The rendered file for each of some files; a document set comes before
a text. -/
def renderFiles (sets : DocumentSets) (fragments : Fragments) :
    List Located → Except Failure (List OutputFile)
  | [] => .ok []
  | f :: fs =>
    match sets.lookup f with
    | some docs => do
      let file ← renderDocuments f docs
      return file :: (← renderFiles sets fragments fs)
    | none => do
      let rest ← renderFiles sets fragments fs
      return (fragments.lookup f).toList ++ rest

/-- The files of an evaluation in order. -/
def orderedFiles (sets : DocumentSets) (fragments : Fragments) : List Located :=
  Located.sort (sets.map (·.1) ++ fragments.map (·.1))

/-- The result of an evaluation. -/
def assemble (sets : DocumentSets) (fragments : Fragments) (exports : List Export) :
    Except Failure EvalResult := do
  let ordered := orderedFiles sets fragments
  let files ← renderFiles sets fragments ordered
  return ⟨files, ordered.flatMap fun f => (sets.lookup f).getD [], exports⟩

end Stencil
