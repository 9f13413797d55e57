import Stencil.Toml.Basic

/-!
# What the lines of a TOML document build

Tables come into being in three ways: a header opens one, a header or a
dotted key passes through one, or an inline table is written out. Each way
leaves something behind that later lines have to respect. A table may be
opened by a header once; a table that a dotted key passed through may not
be opened by a later header; and an array or an inline table that was
written out is complete. A new element of an array of tables starts with a
clean slate.

## Main definitions

* `Toml.changeTable` — a change to the table under a dotted key.
* `Toml.Inline` — an inline table while it is being read.
* `Toml.Draft` — the tables so far, with what may not be touched again.
* `Toml.ofLines?` — the document that lines build, if they agree.
-/

namespace Stencil.Toml

/-- The entries of a table. -/
abbrev Entries := List (Value × Value)

/-- Changes the table under a key; tables that are missing are made, and an
array of tables stands for its last element. There is none if another value
is in the way, or if the change is refused. -/
def changeTable (change : Entries → Option Entries) : Key → Entries → Option Entries
  | [], es => change es
  | part :: key, es => do
    let value ←
      match Keyed.find? (.str part) es with
      | none => Value.map <$> changeTable change key []
      | some (.map fs) => Value.map <$> changeTable change key fs
      | some (.list items) =>
        match items.getLast? with
        | some (.map fs) => do
          let fs ← changeTable change key fs
          some (.list (items.dropLast ++ [.map fs]))
        | _ => none
      | some _ => none
    return Keyed.insert (.str part) value es

/-- Writes a value under a name that is still free. -/
def addEntry (name : Text) (v : Value) (es : Entries) : Option Entries :=
  if Keyed.hasKey (.str name) es then none else some (Keyed.insert (.str name) v es)

/-- Writes a value under a dotted key that is still free. -/
def assignAt (key : Key) (v : Value) (es : Entries) : Option Entries :=
  changeTable (addEntry (key.getLast?.getD []) v) key.dropLast es

/-- Adds an empty table to the array of tables under a name. -/
def addElement (name : Text) (es : Entries) : Option Entries :=
  match Keyed.find? (.str name) es with
  | none => some (Keyed.insert (.str name) (.list [.map []]) es)
  | some (.list items) => some (Keyed.insert (.str name) (.list (items ++ [.map []])) es)
  | some _ => none

/-- Whether a key is one of some others or lies below one. -/
def isWithin (key : Key) (others : List Key) : Bool := others.any (·.isPrefixOf key)

/-- An inline table so far: its entries, and the keys that are complete. -/
structure Inline where
  entries : Entries
  complete : List Key
  deriving Repr

namespace Inline

/-- Before the first pair. -/
def empty : Inline := ⟨[], []⟩

/-- The table with one more pair, unless its key is taken or lies below one
that is complete. -/
def add? (table : Inline) (key : Key) (w : Written) : Option Inline := do
  if isWithin key table.complete then none
  else
    let entries ← assignAt key w.value table.entries
    return ⟨entries, if w.isComposite then key :: table.complete else table.complete⟩

end Inline

/-- The tables so far. Keys are complete when nothing may be added below
them, and closed when no header may open them; those that a dotted key
passed through are closed by the next header. -/
structure Draft where
  root : Entries
  header : Key
  complete : List Key
  closed : List Key
  passed : List Key

namespace Draft

/-- Before the first line. -/
def empty : Draft := ⟨[], [], [], [], []⟩

/-- The draft at a header: what dotted keys passed through is closed. -/
def atHeader (d : Draft) : Draft := { d with closed := d.closed ++ d.passed, passed := [] }

/-- The tables that a dotted key passes through below a header. -/
def passedBy (header key : Key) : List Key :=
  (List.range key.length).drop 1 |>.map fun n => header ++ key.take n

/-- The draft after a line, if the line agrees with those before it. -/
def add? (d : Draft) : Line → Option Draft
  | .assign key w => do
    let passed := passedBy d.header key
    if passed.any (d.closed.contains ·) || isWithin (d.header ++ key.dropLast) d.complete then none
    else
      let path := d.header ++ key
      let root ← assignAt path w.value d.root
      let complete := if w.isComposite then path :: d.complete else d.complete
      return { d with root, complete, passed := d.passed ++ passed }
  | .table key => do
    let d := d.atHeader
    if d.closed.contains key || isWithin key d.complete then none
    else
      let root ← changeTable some key d.root
      return { d with root, header := key, closed := key :: d.closed }
  | .element key => do
    let d := d.atHeader
    if isWithin key d.complete then none
    else
      let root ← changeTable (addElement (key.getLast?.getD [])) key.dropLast d.root
      let outside (k : Key) : Bool := !key.isPrefixOf k
      return { d with
        root, header := key
        complete := d.complete.filter outside, closed := key :: d.closed.filter outside }

end Draft

/-- The document that lines build. -/
def ofLines? (lines : List Line) : Option Entries :=
  Draft.root <$> lines.foldlM Draft.add? Draft.empty

end Stencil.Toml
