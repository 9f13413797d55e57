import Stencil.Document.Plain

/-!
# Types of a schema

A schema gives every part of a document a type. Scalar types carry a kind
and the value they default to; maps list the keys they declare; all items
of an array share one type. Two further types come from annotations: one
that accepts anything, and one that accepts null besides what the type it
wraps accepts. A type may also be left without a rule, in which case it can
be neither checked nor defaulted.

## Main definitions

* `SchemaType` — types, each with the place that declares it.
* `SchemaType.name` — the name of a type in messages.
* `SchemaType.default`, `SchemaType.defaultValue` — the value that stands
  where nothing is given.
-/

namespace Stencil

/-- The types of a schema. -/
inductive SchemaType where
  | any (position : Position) (default : Value)
  | nullable (position : Position) (wrapped : SchemaType)
  | scalar (position : Position) (kind : Text) (default : Value)
  | map (position : Position) (items : List (Value × SchemaType))
  | array (position : Position) (item : SchemaType)
  | unruled (position : Position)
  deriving Repr

namespace SchemaType

instance : Inhabited SchemaType := ⟨.any .unknown .null⟩

/-- The name of a type in messages. -/
def name : SchemaType → Text
  | .any _ _ => "any"
  | .nullable _ wrapped => "null or " ++ wrapped.name
  | .scalar _ kind _ => kind
  | .map _ _ => "map"
  | .array _ _ => "array"
  | .unruled _ => "type"

/-- The place that declares a type. -/
def position : SchemaType → Position
  | .any p _ | .nullable p _ | .scalar p _ _ | .map p _ | .array p _ | .unruled p => p

mutual
/-- The value that stands where nothing is given: the declared one for
scalars and for types that accept anything, null where null is accepted,
every declared key of a map, and no item of an array. -/
def default : SchemaType → Value
  | .any _ d => d
  | .nullable _ _ => .null
  | .scalar _ _ d => d
  | .map _ items => .map (itemDefaults items)
  | .array _ _ => .list []
  | .unruled _ => .null

/-- The declared keys of a map with their defaults. -/
def itemDefaults : List (Value × SchemaType) → List (Value × Value)
  | [] => []
  | (k, t) :: items => (k, t.default) :: itemDefaults items
end

mutual
/-- Whether a default can be given: every type it is made from has a
rule. -/
def hasDefault : SchemaType → Bool
  | .map _ items => itemsHaveDefaults items
  | .unruled _ => false
  | _ => true

/-- Whether every declared key of a map has a default. -/
def itemsHaveDefaults : List (Value × SchemaType) → Bool
  | [] => true
  | (_, t) :: items => t.hasDefault && itemsHaveDefaults items
end

/-- The default of a type, if the types it is made from have rules. -/
def defaultValue (t : SchemaType) : Except Failure Value :=
  if t.hasDefault then .ok t.default else Fault.throw .unruled

end SchemaType

end Stencil
