import Stencil.Yaml.Folding
import Stencil.Yaml.Tree

/-!
# Block layout

A document is written in blocks. Items of a sequence start with a dash,
entries of a mapping stand one below the other, and a block inside another
is indented by two columns, except that a sequence under a key starts in
the column of the key. A key that is not short, or not a single line, is
introduced by a question mark and its value by a colon.

The layout of a node depends only on where it stands, so it is a function
of the node and its `Place`.

## Main definitions

* `Yaml.Place` — where a node stands.
* `Yaml.layout` — the text of a node at a place, from the blank or line
  break before it on.
* `Yaml.document`, `Yaml.stream` — a document with its first line, and
  several of them.
-/

namespace Stencil.Yaml

/-- Where a node stands. The number is the column of the block around it;
`column` is the one reached on the current line. -/
inductive Place where
  /-- After the three dashes of a document. -/
  | root
  /-- After the dash of an item. -/
  | item (block : Nat)
  /-- After the question mark or colon of an entry with a long key. -/
  | marked (block : Nat)
  /-- At the start of an entry, as its key. -/
  | key (block : Nat)
  /-- After a key and its colon. -/
  | value (block column : Nat)

/-- A line break and the column of the next line. -/
def lineAt (column : Nat) : Text := ("\n" : Text) ++ Text.spaces column

namespace Place

/-- The frame of a scalar. -/
def frame : Place → Frame
  | .root => ⟨none, true⟩
  | .item n | .marked n | .value n _ => ⟨some (n + 2), true⟩
  | .key n => ⟨some (n + 2), false⟩

/-- The column of the last code point written, the mark before the node. -/
def column : Place → Nat
  | .root => 3
  | .item n | .marked n => n + 1
  | .key n => n
  | .value _ c => c

/-- Whether the node is a key that shares its line with a value. -/
def isKey : Place → Bool
  | .key _ => true
  | _ => false

/-- The blank before a node that goes on the same line. -/
def blank (p : Place) : Text := if p.isKey then [] else " "

/-- The column of a sequence's block. -/
def sequenceBlock : Place → Nat
  | .root => 0
  | .item n | .marked n | .key n => n + 2
  | .value n _ => n

/-- The column of a mapping's block. -/
def mappingBlock : Place → Nat
  | .root => 0
  | .item n | .marked n | .key n | .value n _ => n + 2

/-- What comes before the first line of a block: after a document's start
or a key it has a line of its own. -/
def opening (p : Place) (block : Nat) : Text :=
  match p with
  | .root | .value _ _ => lineAt block
  | .item _ | .marked _ | .key _ => " "

end Place

/-- The length of a kind's name where a key's length is measured. -/
def tagLength : Tag → Nat
  | .str | .int => 5
  | .bool | .null => 6
  | .float => 7
  | .timestamp => 11
  | .binary | .merge | .value => 8

/-- Whether a key needs no question mark: it is short and a single line. -/
def Tree.isShortKey : Tree → Bool
  | .scalar tag t => t.length + tagLength tag < 128 && !isMultiline t
  | .binary lines => lines.isEmpty
  | .sequence items => items.isEmpty
  | .mapping entries => entries.isEmpty

/-- The colon after a key without a question mark. An empty sequence closes
its line, so that the colon starts the next one. -/
def Tree.keyEnd : Tree → Text
  | .sequence _ => "\n:"
  | _ => ":"

/-- A scalar at a place. Nothing is written for null, except the blank
after a dash. -/
def layoutScalar (p : Place) (tag : Tag) (t : Text) : Text :=
  if tag = .null && t.isEmpty then
    match p with
    | .item _ => " "
    | _ => []
  else
    p.blank ++ foldScalar p.frame (p.column + p.blank.length) (Style.choose p.isKey tag t) t

/-- The column reached after a text that starts at a column. -/
def endColumn (column : Nat) (t : Text) : Nat :=
  t.foldl (fun n c => if isBreak c then 0 else n + 1) column

mutual
/-- The text of a node at a place. -/
def layout (p : Place) : Tree → Text
  | .scalar tag t => layoutScalar p tag t
  | .binary lines =>
    p.blank ++
      if p.isKey then Text.ofString "!!binary \"\""
      else Text.ofString "!!binary |" ++ lines.flatMap fun l => p.frame.newline ++ l
  | .sequence [] => p.blank ++ "[]"
  | .sequence (x :: xs) =>
    p.opening p.sequenceBlock ++
      Text.joinWith (lineAt p.sequenceBlock) (layoutItems p.sequenceBlock (x :: xs))
  | .mapping [] => p.blank ++ "\x7b\x7d"
  | .mapping (e :: es) =>
    p.opening p.mappingBlock ++
      Text.joinWith (lineAt p.mappingBlock) (layoutEntries p.mappingBlock (e :: es))

/-- The items of a sequence in their block. -/
def layoutItems (block : Nat) : List Tree → List Text
  | [] => []
  | x :: xs => (("-" : Text) ++ layout (.item block) x) :: layoutItems block xs

/-- The entries of a mapping in their block. -/
def layoutEntries (block : Nat) : List (Tree × Tree) → List Text
  | [] => []
  | (k, v) :: es =>
    let entry : Text :=
      if k.isShortKey then
        let key := layout (.key block) k ++ k.keyEnd
        key ++ layout (.value block (endColumn block key)) v
      else
        "?" ++ layout (.marked block) k ++ lineAt block ++ ":" ++ layout (.marked block) v
    entry :: layoutEntries block es
end

/-- A document: three dashes, its root, and a line end. -/
def document (t : Tree) : Text := "---" ++ layout .root t ++ "\n"

/-- Whether a document leaves open where it ends: its root has no marks and
could go on with the next line. -/
def isOpenEnded : Tree → Bool
  | .scalar tag t => Style.choose false tag t = .plain
  | _ => false

/-- Documents one after another. An open end of the last one is closed. -/
def stream (trees : List Tree) : Text :=
  trees.flatMap document ++
    if (trees.getLast?.map isOpenEnded).getD false then Text.ofString "...\n" else []

end Stencil.Yaml
