import Stencil.Evaluation.Assembly

/-!
# Evaluating the files of a library

Every accessible file has one role. Output is rendered: YAML to documents
and text to text, and no other kind is allowed there. Library files provide
names, scripts included; a library file of an unknown kind is passed over,
and so is every file that is neither. The first file that fails ends the
evaluation. Afterwards all library values must have been consumed, overlays
are applied across the documents, and the result is assembled.

## Main definitions

* `FileRole`, `File.role` — what happens to a file.
* `Piece` — what a file contributes.
* `documentSets`, `textFragments`, `exportsOf` — what several contribute.
* `Loader.evaluateFile`, `Loader.evaluateFiles` — one file, and several.
* `Loader.evaluateLibrary` — the whole evaluation.
-/

namespace Stencil

/-- What happens to a file. -/
inductive FileRole where
  | documents | fragment | unsupported | symbols | skipped
  deriving DecidableEq, Repr

/-- The role of a file under some decisions on output. -/
def File.role (f : File) (m : Marks) : FileRole :=
  if f.isForOutput m then
    match f.kind with
    | .yaml => .documents
    | .text => .fragment
    | .script | .unknown => .unsupported
  else if f.isLibrary && f.kind ≠ .unknown then .symbols
  else .skipped

/-- What a file contributes to the result. -/
inductive Piece where
  | documents (file : Located) (docs : List Document)
  | fragment (file : Located) (output : OutputFile)
  | symbols (names : Export)
  deriving Repr

namespace Piece

/-- The document set that a piece is. -/
def documents? : Piece → Option (Located × List Document)
  | .documents f docs => some (f, docs)
  | _ => none

/-- The rendered text that a piece is. -/
def fragment? : Piece → Option (Located × OutputFile)
  | .fragment f output => some (f, output)
  | _ => none

/-- The exported names that a piece is. -/
def symbols? : Piece → Option Export
  | .symbols names => some names
  | _ => none

end Piece

/-- The document sets among some pieces, by file. -/
def documentSets (pieces : List Piece) : DocumentSets :=
  Named.ofList (pieces.filterMap Piece.documents?)

/-- The rendered texts among some pieces, by file. -/
def textFragments (pieces : List Piece) : Fragments :=
  Named.ofList (pieces.filterMap Piece.fragment?)

/-- The exported names among some pieces, in their order. -/
def exportsOf (pieces : List Piece) : List Export := pieces.filterMap Piece.symbols?

namespace Loader

variable {σ : Type}

/-- An engine's answer for a file, with what it consumed entered into the
ledger. -/
def evaluated {α : Type} (f : Located) (ledger : Ledger) (a : Action σ (Evaluated α)) :
    Run σ (Evaluated α × Ledger) :=
  Run.wrap (.evaluation f.path) do
    let e ← Run.perform a
    return (e, ← Run.ofExcept (ledger.markAll e.consumed))

/-- The names that a library file defines. -/
def librarySymbols (engine : Engine σ) (context : Context) (f : Located) (ledger : Ledger) :
    Run σ (Symbols × Ledger) := do
  match f.file.kind with
  | .yaml =>
    let (e, ledger) ← evaluated f ledger (engine.yaml context f.file)
    return (e.symbols, ledger)
  | .text =>
    let (e, ledger) ← evaluated f ledger (engine.text context f.file)
    return (e.symbols, ledger)
  | .script | .unknown =>
    let (e, ledger) ← evaluated f ledger (engine.script context f.file)
    return (e.symbols, ledger)

/-- A rendered text as an output file. -/
def renderText (f : Located) (t : Text) : Except Failure OutputFile := do
  let data ← wrapFault (fun m => .evaluation f.path ("encoding text result: " ++ m))
    (Documents.encode t)
  return ⟨f.path, data, f.file.kind⟩

/-- What a file contributes, if anything. -/
def evaluateFile (l : Loader σ) (engine : Engine σ) (f : Located) (ledger : Ledger) :
    Run σ (Option Piece × Ledger) := do
  let context := l.context.withCurrent f.library
  match f.file.role (← Run.marks) with
  | .documents =>
    let (e, ledger) ← evaluated f ledger (engine.yaml context f.file)
    return (some (.documents f e.content), ledger)
  | .fragment =>
    let (e, ledger) ← evaluated f ledger (engine.text context f.file)
    return (some (.fragment f (← Run.ofExcept (renderText f e.content))), ledger)
  | .unsupported => Run.ofExcept (Error.throw (.unknownFileType f.path f.file.kind.name))
  | .symbols =>
    let (symbols, ledger) ← librarySymbols engine context f ledger
    return (some (.symbols ⟨f.path, symbols⟩), ledger)
  | .skipped => return (none, ledger)

/-- What some files contribute, up to the first that fails. -/
def evaluateFiles (l : Loader σ) (engine : Engine σ) :
    List Located → Ledger → Run σ (List Piece × Ledger)
  | [], ledger => return ([], ledger)
  | f :: fs, ledger => do
    let (piece, ledger) ← l.evaluateFile engine f ledger
    let (pieces, ledger) ← evaluateFiles l engine fs ledger
    return (piece.toList ++ pieces, ledger)

/-- What the accessible files contribute, as a phase that counts the
rendered files and the exports. -/
def evaluatePieces (l : Loader σ) (engine : Engine σ) (ledger : Ledger) :
    Run σ (List Piece × Ledger) :=
  Run.inSpan "evaluate" do
    let (pieces, ledger) ← l.evaluateFiles engine l.library.accessible ledger
    Run.annotate "files" ((documentSets pieces).length + (textFragments pieces).length)
    Run.annotate "exports" (exportsOf pieces).length
    return (pieces, ledger)

/-- Fails if library values were not consumed. -/
def checkUnused (ledger : Ledger) : Except Failure Unit :=
  let report := ledger.report
  if report.allUsed then .ok () else Error.throw (.unusedValues report.unused)

/-- The evaluation of the library at hand. -/
def evaluateLibrary (l : Loader σ) (values : DataValues) (libraryValues : List DataValues)
    (librarySchemas : List DocumentSchema) : Run σ EvalResult := do
  let engine ← Run.perform (l.collaborators.newEngine ⟨values, libraryValues, librarySchemas⟩)
  let (pieces, ledger) ← l.evaluatePieces engine (.ofList libraryValues)
  Run.ofExcept (checkUnused ledger)
  let sets ← Run.inSpan "post-process" <|
    Run.wrap (fun m => .reported .postProcessing ("Applying overlays: " ++ m) []) <|
      Run.perform (l.collaborators.postProcess (documentSets pieces))
  Run.inSpan "assemble" <| Run.ofExcept <|
    assemble sets (textFragments pieces) (exportsOf pieces)

end Loader

end Stencil
