import Stencil.Failure

/-!
# Data values and their use

Data values are handed to an evaluation as documents; some are addressed to
a nested library. Values addressed to a library that nobody asks for are a
mistake of the user, so a ledger records which of the tracked values were
consumed. Values are told apart by identity: the same content twice is two
values, and one value tracked twice is used in both places.

## Main definitions

* `DataValues` — one document of data values.
* `Ledger`, `Ledger.markUsed`, `Ledger.isUsed`, `Ledger.forLibrary` — the
  record of use.
* `Ledger.report` — which tracked values were used.
-/

namespace Stencil

/-- Data values with a description for messages. `libraryRef` names the
nested library they are addressed to. -/
structure DataValues where
  id : Nat
  doc : Option Document
  desc : Text
  libraryRef : Option Text
  deriving Repr, Inhabited

namespace DataValues

/-- The identity of values that the library itself makes. -/
def ownId : Nat := 0

/-- No values. -/
def empty : DataValues := ⟨ownId, none, "empty data values", none⟩

/-- Whether values are addressed to a nested library. -/
def hasLibraryRef (v : DataValues) : Bool := v.libraryRef.isSome

end DataValues

/-- Which of the tracked values were used. -/
structure UsageReport where
  used : List Text
  unused : List Text
  deriving Repr

/-- Whether nothing was left unused. -/
def UsageReport.allUsed (r : UsageReport) : Bool := r.unused.isEmpty

/-- The tracked values in the order in which they were supplied, and the
identities of those that were used. -/
structure Ledger where
  tracked : List DataValues
  used : List Nat
  deriving Repr

namespace Ledger

/-- A ledger in which nothing has been used yet. -/
def ofList (tracked : List DataValues) : Ledger := ⟨tracked, []⟩

/-- The tracked values addressed to a library. -/
def forLibrary (l : Ledger) (ref : Option Text) : List DataValues :=
  l.tracked.filter (·.libraryRef = ref)

/-- Whether values are tracked. -/
def tracks (l : Ledger) (v : DataValues) : Bool := l.tracked.any (·.id = v.id)

/-- Whether values were used. -/
def isUsed (l : Ledger) (v : DataValues) : Bool := l.used.contains v.id

/-- A ledger after values were used, which must be tracked. -/
def markUsed (l : Ledger) (v : DataValues) : Except Failure Ledger :=
  if l.tracks v then .ok { l with used := v.id :: l.used }
  else Fault.throw (.untracked v.desc)

/-- A ledger after several values were used, up to the first that is not
tracked. -/
def markAll (l : Ledger) (vs : List DataValues) : Except Failure Ledger := vs.foldlM markUsed l

/-- Which of the tracked values were used, both lists in the order in which
the values were supplied. -/
def report (l : Ledger) : UsageReport :=
  ⟨(l.tracked.filter l.isUsed).map (·.desc),
   (l.tracked.filter fun v => !l.isUsed v).map (·.desc)⟩

end Ledger

end Stencil
