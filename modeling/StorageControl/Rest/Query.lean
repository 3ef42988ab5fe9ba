/-
# Queries

A query is a row of parameters, each a key and a value. A parameter that is known may be given
once at most; all others are ignored.
-/
import StorageControl.Rest.Percent
import StorageControl.Text.Segments

namespace StorageControl.Rest

/-- The parameters of a query, in order. -/
abbrev Query := List (String × String)

namespace Query

/-! ## Reading -/

/-- A key or a value as it is meant: a plus sign is a blank, and bytes that spell nothing are
replaced. -/
def meaning (s : List Char) : String :=
  let blanks := s.map fun c => if c = '+' then ' ' else c
  Text.ofBytesLenient (unescape (Text.bytes (String.ofList blanks)))

/-- One parameter; without an equals sign its value is empty. -/
def parameter (s : List Char) : String × String :=
  let (key, value) := Text.splitFirst '=' s
  (meaning key, meaning (value.getD []))

/-- Reads a query. -/
def parse (s : String) : Query :=
  ((Text.cut '&' s.toList).filter fun piece => !piece.isEmpty).map parameter

/-! ## Looking up -/

/-- What a query says of a parameter. -/
inductive Mention where
  | absent
  | once (value : String)
  | repeated
deriving DecidableEq, Repr

/-- The value given to a parameter that goes by some names. -/
def mention (q : Query) (names : List String) : Mention :=
  match q.filter fun p => names.contains p.1 with
  | [] => .absent
  | [p] => .once p.2
  | _ => .repeated

/-- A parameter of a type. One that is absent has the value `default`; one that is repeated or
cannot be read has none. -/
def value? {α : Type} (q : Query) (names : List String) (default : α)
    (read : String → Option α) : Option α :=
  match q.mention names with
  | .absent => some default
  | .once s => read s
  | .repeated => none

/-! ## Types of parameters -/

/-- A signed 32-bit number. -/
def int32? (s : String) : Option Int32 :=
  (Text.integer? s.toList).bind fun n =>
    if -2147483648 ≤ n ∧ n ≤ 2147483647 then some (Int32.ofInt n) else none

/-- A truth value. -/
def flag? (s : String) : Option Bool :=
  if s = "true" then some true else if s = "false" then some false else none

end Query

end StorageControl.Rest
