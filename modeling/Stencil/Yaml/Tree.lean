import Stencil.Failure
import Stencil.Number.Shortest
import Stencil.Text.Base64
import Stencil.Yaml.Tag

/-!
# The tree that is written

Before a value is written as YAML it becomes a tree of scalars, sequences
and mappings, in which every scalar has its text and the kind that the text
must be read back as. Tuples become sequences. An object or a node has no
such form.

## Main definitions

* `Yaml.Tree` — scalars, sequences and mappings.
* `Yaml.Tree.ofValue` — the tree of a value.
-/

namespace Stencil.Yaml

/-- What a YAML document consists of. Bytes are written in lines. -/
inductive Tree where
  | scalar (tag : Tag) (text : Text)
  | binary (lines : List Text)
  | sequence (items : List Tree)
  | mapping (entries : List (Tree × Tree))
  deriving Repr

/-- The text of a floating-point number. -/
def floatText : Binary64 → Text
  | .nan _ => ".nan"
  | .infinite negative => if negative then "-.inf" else ".inf"
  | x => x.text

namespace Tree

/-- A key: null, which is otherwise written as nothing, needs a name. -/
def asKey : Tree → Tree
  | .scalar .null _ => .scalar .null "null"
  | t => t

mutual
/-- The tree of a value. -/
def ofValue : Value → Except Failure Tree
  | .null => .ok (.scalar .null "")
  | .bool b => .ok (.scalar .bool (if b then "true" else "false"))
  | .int n => .ok (.scalar .int (Text.ofInt n))
  | .float x => .ok (.scalar .float (floatText x))
  | .str t => .ok (.scalar .str t)
  | .bytes bs => .ok (.binary (Base64.lines bs))
  | .date d => .ok (.scalar .timestamp d.text)
  | .list xs => do return .sequence (← ofValues xs)
  | .tuple xs => do return .sequence (← ofValues xs)
  | .map es => do return .mapping (← ofEntries es)
  | .object n => Fault.throw (.unrepresentable (.object n))
  | .node m => Fault.throw (.unrepresentable (.node m))

/-- The trees of some values. -/
def ofValues : List Value → Except Failure (List Tree)
  | [] => .ok []
  | x :: xs => do
    let t ← ofValue x
    return t :: (← ofValues xs)

/-- The trees of some entries. -/
def ofEntries : List (Value × Value) → Except Failure (List (Tree × Tree))
  | [] => .ok []
  | (k, v) :: es => do
    let key ← ofValue k
    let value ← ofValue v
    return (key.asKey, value) :: (← ofEntries es)
end

end Tree

end Stencil.Yaml
