/-
# Shapes

A shape says which values are accepted where one of a certain kind is expected: a number in a
range, one of some words, a record with certain fields. Reading under a shape accepts both
written forms of a record, the object of its members and the list of its fields in order.
-/
import StorageControl.Json.Basic

namespace StorageControl

/-- Whether a field of a record may be left out. -/
inductive Presence where
  /-- It may not. -/
  | required
  /-- It may be left out of an object, and then counts as null. -/
  | optional
  /-- It may be left out of an object, and with all fields after it out of a list; it then has
  its default value. -/
  | defaulted
deriving DecidableEq, Repr

/-- What is expected of a value. -/
inductive Shape where
  /-- Any value, which is kept as it is. -/
  | any
  /-- Any value, which is passed over. -/
  | skipped
  /-- Null. -/
  | nothing
  /-- A truth value. -/
  | flag
  /-- A text. -/
  | text
  /-- A whole number between two bounds. -/
  | whole (least greatest : Int)
  /-- Null, or a value of the shape. -/
  | nullable (shape : Shape)
  /-- A list of values of the shape. -/
  | list (item : Shape)
  /-- One of some words, alone or as the only key of an object whose value is null. -/
  | word (words : List String)
  /-- An object with exactly one key, which decides the shape of its value. -/
  | variant (arms : List (String × Shape))
  /-- A record with fields in the given order. -/
  | record (fields : List (String × Presence × Shape))
deriving Repr, Inhabited

/-- A field of a record: its key, whether it may be left out, and the shape of its value. -/
abbrev Field := String × Presence × Shape

namespace Shape

/-- The value that reading under the shape makes of one that is neither a list nor an object. -/
def fit : Shape → Json → Option Json
  | .any, v => some v
  | .skipped, _ => some .null
  | .nothing, .null => some .null
  | .flag, .bool b => some (.bool b)
  | .text, .str s => some (.str s)
  | .whole least greatest, .num (.whole n) =>
    if least ≤ n ∧ n ≤ greatest then some (.num (.whole n)) else none
  | .nullable _, .null => some .null
  | .nullable s, v => fit s v
  | .word words, .str s => if s ∈ words then some (.str s) else none
  | _, _ => none

end Shape

/-- Every field that has to be there is among the given keys. -/
def Field.complete (fields : List Field) (keys : List String) : Bool :=
  fields.all fun f => f.2.1 != .required || keys.contains f.1

/-- All of the fields have default values. -/
def Field.allDefaulted (fields : List Field) : Bool :=
  fields.all fun f => f.2.1 == .defaulted

/-- The members that a list of values gives to fields in order; none if there are too many
values, or too few for the fields without default value. -/
def Field.positional : List Field → List Json → Option (List (String × Json))
  | fields, [] => if Field.allDefaulted fields then some [] else none
  | [], _ :: _ => none
  | f :: fields, v :: values => (Field.positional fields values).map ((f.1, v) :: ·)

end StorageControl
