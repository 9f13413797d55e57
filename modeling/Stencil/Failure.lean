import Stencil.Document.Node
import Stencil.Value.Literal
import Stencil.Text.Utf8

/-!
# Failures

Two sorts of failure are kept apart. An `Error` is one of the library's own, or
one that a collaborator adds to these: it has a stable code, a message, and
details by name that a program can read. A `Fault` is anything else that goes
wrong, in a collaborator or in a conversion that a value does not allow.
`wrapFault` turns the second sort into the first: an error passes through as it
is, and a fault becomes an error exactly once, with the fault remembered as its
cause.

## Main definitions

* `Diagnostic` — a syntax problem at a place.
* `Error`, with `Error.code`, `Error.message` and `Error.detail`.
* `Fault`, with `Fault.message`.
* `Failure` — either sort, an error with its cause.
* `wrapFault`, `wrapFaults` — one wrapper, and a stack of them.
-/

namespace Stencil

/-! ## Diagnostics -/

/-- A syntax problem, what was expected in its place and what was found,
with hints for the reader. Empty texts are left out. -/
structure Diagnostic where
  position : Option Position
  description : Text
  expected : Text
  found : Text
  hints : List Text
  deriving Repr

namespace Diagnostic

/-- A diagnostic at a place, without hints. -/
def atPosition (p : Position) (description expected found : Text) : Diagnostic :=
  ⟨some p, description, expected, found, []⟩

/-- A labelled line, unless its content is empty. -/
def labelled (label content : Text) : List Text :=
  if content.isEmpty then [] else [label ++ content]

/-- A diagnostic in words, one line for each part. -/
def text (d : Diagnostic) : Text :=
  let first :=
    match d.position with
    | some p => p.text ++ ": " ++ d.description
    | none => d.description
  Text.joinWith "\n" <|
    first :: labelled "  found: " d.found ++ labelled "  expected: " d.expected ++
      d.hints.map (Text.ofString "  hint: " ++ ·)

/-- A place as a value. -/
def positionValue (p : Position) : Value :=
  .map [(.str "file", .str p.file),
    (.str "line", match p.line with | some n => .int n | none => .null)]

/-- The parts of a diagnostic by name. -/
def detail (d : Diagnostic) : List (Text × Value) :=
  [("position", match d.position with | some p => positionValue p | none => .null),
   ("description", .str d.description),
   ("expected", .str d.expected),
   ("found", .str d.found),
   ("hints", .list (d.hints.map .str))]

end Diagnostic

/-! ## Errors of the library -/

/-- Sorts of errors that carry nothing but a message and details. -/
inductive ReportedKind where
  | general | config | schemaMerge | valuesResolution | postProcessing
  /-- A sort that a collaborator adds, with a code of its own. -/
  | added (code : Text)
  deriving DecidableEq, Repr

/-- The library's own errors, and those that collaborators add to them. Details
stand under names. -/
inductive Error where
  | reported (kind : ReportedKind) (message : Text) (detail : List (Text × Value))
  | annotationSyntax (diagnostic : Diagnostic)
  | evaluation (path cause : Text)
  | unknownFileType (path type : Text)
  | unusedValues (descriptions : List Text)
  deriving Repr

namespace Error

/-- The stable code of an error. -/
def code : Error → Text
  | .reported .general _ _ => "DOCWEAVE_ERROR"
  | .reported .config _ _ => "INVALID_CONFIG"
  | .reported .schemaMerge _ _ => "SCHEMA_MERGE_FAILED"
  | .reported .valuesResolution _ _ => "VALUES_RESOLUTION_FAILED"
  | .reported .postProcessing _ _ => "POST_PROCESSING_FAILED"
  | .reported (.added code) _ _ => code
  | .annotationSyntax _ => "ANNOTATION_SYNTAX"
  | .evaluation _ _ => "EVALUATION_FAILED"
  | .unknownFileType _ _ => "UNKNOWN_FILE_TYPE"
  | .unusedValues _ => "UNUSED_LIBRARY_VALUES"

/-- An error in words. -/
def message : Error → Text
  | .reported _ m _ => m
  | .annotationSyntax d => d.text
  | .evaluation path cause => "Evaluating " ++ path ++ ": " ++ cause
  | .unknownFileType path type =>
    "Unknown file type " ++ type.quoted ++ " for output file " ++ path
  | .unusedValues descriptions =>
    "Expected all provided library data values documents to be used but found unused: " ++
      Text.joinWith ", " descriptions

/-- The details of an error by name. -/
def detail : Error → List (Text × Value)
  | .reported _ _ d => d
  | .annotationSyntax d => d.detail
  | .evaluation path _ => [("path", .str path)]
  | .unknownFileType path type => [("path", .str path), ("type", .str type)]
  | .unusedValues descriptions => [("unused", .list (descriptions.map .str))]

end Error

/-! ## Faults -/

/-- What goes wrong outside the library's own errors. -/
inductive Fault where
  /-- A collaborator failed, with a message under a label of its own. -/
  | raised (label message : Text)
  /-- A value of this kind cannot be a key. -/
  | unhashable (kind : Value.Kind)
  /-- A text cannot be encoded. -/
  | unencodable (obstacle : Utf8.Obstacle)
  /-- A value has no written form. -/
  | unrepresentable (value : Value)
  /-- Data values were marked in a ledger that does not track them. -/
  | untracked (description : Text)
  /-- A name is not that of a kind of file. -/
  | unknownKind (name : Text)
  /-- Merged data values break rules of their schema. -/
  | rejected (complaints : List Text)
  /-- A schema type has no rule to check or default by. -/
  | unruled
  /-- A call gives an argument in its place and once more by name. -/
  | givenTwice (function argument : Text)
  /-- A value of this kind stands where something that has a name is looked
  for. -/
  | nameless (kind : Value.Kind)
  deriving Repr

/-- A fault in words. -/
def Fault.message : Fault → Text
  | .raised _ m => m
  | .unhashable k => "unhashable type: " ++ k.typeName.quoted
  | .unencodable o => o.message
  | .unrepresentable v => "cannot represent an object: " ++ v.literal
  | .untracked description =>
    Text.quoted ("Data values " ++ description.quoted ++ " are not tracked by this ledger")
  | .unknownKind name => name.quoted ++ " is not a valid FileType"
  | .rejected complaints => Text.joinWith "; " complaints
  | .unruled => ""
  | .givenTwice function argument =>
    function ++ "() got multiple values for argument " ++ argument.quoted
  | .nameless k => k.typeName.quoted ++ " object has no attribute 'name'"

/-! ## Failures and their wrapping -/

/-- A failed computation: an error, with the fault that it stands for if it
stands for one, or a fault. -/
inductive Failure where
  | error (e : Error) (cause : Option Fault)
  | fault (f : Fault)
  deriving Repr

namespace Failure

/-- A failure in words. -/
def message : Failure → Text
  | .error e _ => e.message
  | .fault f => f.message

/-- An error passes unchanged; a fault becomes the error that `describe`
makes of its message, with itself as the cause. -/
def wrap (describe : Text → Error) : Failure → Failure
  | .error e cause => .error e cause
  | .fault f => .error (describe f.message) (some f)

end Failure

/-- A fault where a computation may fail. -/
def Fault.throw {α : Type} (f : Fault) : Except Failure α := .error (.fault f)

/-- An error where a computation may fail. -/
def Error.throw {α : Type} (e : Error) : Except Failure α := .error (.error e none)

/-- A computation whose faults become errors. -/
def wrapFault {α : Type} (describe : Text → Error) (r : Except Failure α) :
    Except Failure α :=
  match r with
  | .ok a => .ok a
  | .error f => .error (f.wrap describe)

/-- A computation under a stack of wrappers, the innermost first. -/
def wrapFaults {α : Type} (describes : List (Text → Error)) (r : Except Failure α) :
    Except Failure α :=
  describes.foldl (fun r describe => wrapFault describe r) r

end Stencil
