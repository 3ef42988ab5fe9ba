/-
# Typed values on the wire

A codec says how the values of a type are written as JSON and read from it. Records are described
once, field by field: the key, the codec of the field, how it is taken from the record, and
whether it may be left out. Writing, reading a value and reading text all follow that description.
-/
import StorageControl.Json.Reader

namespace StorageControl

/-! ## Codecs -/

/-- How values of a type are written and read. -/
structure Codec (α : Type) where
  shape : Shape
  encode : α → Json
  decode : Json → Option α

namespace Codec

variable {α β γ ρ : Type}

/-- Texts. -/
def text : Codec String where
  shape := .text
  encode := .str
  decode
    | .str s => some s
    | _ => none

/-- Truth values. -/
def flag : Codec Bool where
  shape := .flag
  encode := .bool
  decode
    | .bool b => some b
    | _ => none

/-- The whole number of a value, if it lies between two bounds. -/
def wholeBetween (least greatest : Int) : Json → Option Int
  | .num (.whole n) => if least ≤ n ∧ n ≤ greatest then some n else none
  | _ => none

/-- Signed 32-bit numbers. -/
def int32 : Codec Int32 where
  shape := .whole (-2147483648) 2147483647
  encode n := .ofInt n.toInt
  decode v := (wholeBetween (-2147483648) 2147483647 v).map Int32.ofInt

/-- Signed 64-bit numbers. -/
def int64 : Codec Int64 where
  shape := .whole (-9223372036854775808) 9223372036854775807
  encode n := .ofInt n.toInt
  decode v := (wholeBetween (-9223372036854775808) 9223372036854775807 v).map Int64.ofInt

/-- Unsigned 64-bit numbers. -/
def uint64 : Codec UInt64 where
  shape := .whole 0 18446744073709551615
  encode n := .ofInt n.toNat
  decode v := (wholeBetween 0 18446744073709551615 v).map fun n => UInt64.ofNat n.toNat

/-- Values kept as they are. -/
def free : Codec Json where
  shape := .any
  encode v := v
  decode := some

/-- Null, or a value of the type. -/
def nullable (c : Codec α) : Codec (Option α) where
  shape := .nullable c.shape
  encode
    | none => .null
    | some a => c.encode a
  decode
    | .null => some none
    | v => (c.decode v).map some

/-- Lists of values of the type. -/
def list (c : Codec α) : Codec (List α) where
  shape := .list c.shape
  encode l := .arr (l.map c.encode)
  decode
    | .arr items => items.mapM c.decode
    | _ => none

/-- One of some words; `name` is the word written for a value, `words` are those read. -/
def word (name : α → String) (words : List (String × α)) : Codec α where
  shape := .word (words.map (·.1))
  encode a := .str (name a)
  decode
    | .str s => Assoc.find? s words
    | .obj [(s, .null)] => Assoc.find? s words
    | _ => none

/-! ## Records -/

/-- The fields of a record of type `ρ` of which a `β` can be built. -/
structure Fields (ρ β : Type) where
  layout : List Field
  encode : ρ → List (String × Json)
  decode : (String → Option Json) → Option β

namespace Fields

/-- No fields yet; `make` builds the record. -/
def of (ρ : Type) (make : β) : Fields ρ β where
  layout := []
  encode _ := []
  decode _ := some make

/-- One more field. `absent` is its value when it is left out, and it is not written when `silent`
says so. -/
def add (p : Fields ρ (γ → β)) (key : String) (c : Codec γ) (get : ρ → γ)
    (presence : Presence) (absent : Option γ) (silent : γ → Bool) : Fields ρ β where
  layout := p.layout ++ [(key, presence, c.shape)]
  encode r := p.encode r ++ if silent (get r) then [] else [(key, c.encode (get r))]
  decode find :=
    match p.decode find, (match find key with | some v => c.decode v | none => absent) with
    | some f, some v => some (f v)
    | _, _ => none

/-- A field that must be there. -/
def required (p : Fields ρ (γ → β)) (key : String) (c : Codec γ) (get : ρ → γ) : Fields ρ β :=
  p.add key c get .required none fun _ => false

/-- A field with a default value. -/
def defaulted (p : Fields ρ (γ → β)) (key : String) (c : Codec γ) (get : ρ → γ) (value : γ) :
    Fields ρ β :=
  p.add key c get .defaulted (some value) fun _ => false

/-- A field that is null unless given. -/
def nullable (p : Fields ρ (Option γ → β)) (key : String) (c : Codec γ) (get : ρ → Option γ) :
    Fields ρ β :=
  p.defaulted key c.nullable get none

/-- A field that is neither written nor needed when it is null. -/
def omittable (p : Fields ρ (Option γ → β)) (key : String) (c : Codec γ)
    (get : ρ → Option γ) : Fields ρ β :=
  p.add key c.nullable get .optional (some none) fun v => v.isNone

/-- A text that is neither written nor needed when it is empty. -/
def omittableText (p : Fields ρ (String → β)) (key : String) (get : ρ → String) : Fields ρ β :=
  p.add key text get .defaulted (some "") fun s => s.isEmpty

end Fields

/-- Records with the given fields. -/
def record (p : Fields ρ ρ) : Codec ρ where
  shape := .record p.layout
  encode r := .object (p.encode r)
  decode
    | .obj members => p.decode fun key => Assoc.find? key members
    | .arr items =>
      (Field.positional p.layout items).bind fun members =>
        p.decode fun key => Assoc.find? key members
    | _ => none

/-! ## Reading text -/

/-- What a run of bytes holds where a value of a type is expected. -/
inductive Outcome (α : Type) where
  | found (value : α) (rest : List UInt8)
  | truncated
  | malformed
  | unfit

/-- Reads a value of the type off the front of some bytes. -/
def read (c : Codec α) (bs : List UInt8) : Outcome α :=
  match Json.readAs c.shape bs with
  | .found v rest =>
    match c.decode v with
    | some a => .found a rest
    | none => .unfit
  | .truncated => .truncated
  | .malformed => .malformed
  | .unfit => .unfit

end Codec

end StorageControl
