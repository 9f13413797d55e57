import Stencil.Evaluation.Run

/-!
# Discovering files by annotation

Schemas and data values are found by parsing the template YAML files of a
library: a file belongs to them if one of its documents carries their
annotation. Such a file is taken out of the output.

## Main definitions

* `isCandidate` — the files that are parsed.
* `filesDeclaring` — the files found.
-/

namespace Stencil

/-- Whether a file is parsed during discovery. -/
def isCandidate (f : File) : Bool := f.kind = .yaml && f.template

variable {σ : Type}

/-- Parses a file and tells whether one of its documents carries an
annotation. -/
def declares (c : Collaborators σ) (name : Text) (f : Located) : Run σ Bool := do
  let docs ← Run.wrap (fun m => .evaluation f.path ("parsing: " ++ m)) (Run.perform (c.parse f.file))
  let (matched, _) ← Run.ofExcept (Documents.split name docs)
  return !matched.isEmpty

/-- The files among some that declare an annotation; they are taken out of
the output one by one. -/
def discover (c : Collaborators σ) (name : Text) : List Located → Run σ (List Located)
  | [] => return []
  | f :: fs => do
    if isCandidate f.file then
      if ← declares c name f then
        Run.claim f.file
        return f :: (← discover c name fs)
    discover c name fs

/-- The files of a library that declare an annotation. -/
def filesDeclaring (c : Collaborators σ) (name : Text) (lib : Library) :
    Run σ (List Located) :=
  discover c name lib.accessible

/-- Discovery as a phase that counts the files it finds. -/
def Loader.discoverFiles (l : Loader σ) (name : Text) : Run σ (List Located) :=
  Run.inSpan "discover" do
    let files ← filesDeclaring l.collaborators name l.library
    Run.annotate "files" files.length
    return files

end Stencil
