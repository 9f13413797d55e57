import Stencil.Document.Plain
import Stencil.Yaml.Layout

/-!
# Documents as bytes

The documents of one file become one YAML stream in UTF-8. All of them are
first reduced to plain values, then to trees, so a document that cannot be
written keeps the whole stream from being written.

## Main definitions

* `Documents.toPlain` — the plain values of some documents.
* `Documents.serialize` — the bytes of their stream.
-/

namespace Stencil.Documents

/-- The plain values of some documents. -/
def toPlain (docs : List Document) : Except Failure (List Value) := Node.itemsPlain docs

/-- A text as bytes. -/
def encode (t : Text) : Except Failure (List UInt8) :=
  match Utf8.encode t with
  | .ok bytes => .ok bytes
  | .error o => Fault.throw (.unencodable o)

/-- The bytes of a stream of documents. -/
def serialize (docs : List Document) : Except Failure (List UInt8) := do
  let values ← toPlain docs
  let trees ← Yaml.Tree.ofValues values
  encode (Yaml.stream trees)

end Stencil.Documents
