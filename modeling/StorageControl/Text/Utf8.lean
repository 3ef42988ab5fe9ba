/-
# Texts as bytes

The engine and the callers of the interface send bytes. They are read as UTF-8 one byte at a
time: between characters, or inside one with some bytes still owed. Strict reading refuses the
first byte that no character can go on with; lenient reading writes U+FFFD for each such run of
bytes and goes on.
-/

namespace StorageControl.Text

/-! ## Writing -/

/-- The bytes of a text. -/
def bytes (s : String) : List UInt8 :=
  s.toList.flatMap String.utf8EncodeChar

/-! ## One byte at a time -/

/-- A character of which `owed` bytes are still to come, the next of them between `least` and
`greatest`; `code` is what the bytes so far say. With nothing owed, `code` is a whole character. -/
structure Pending where
  owed : Nat
  least : Nat
  greatest : Nat
  code : Nat
deriving DecidableEq, Repr

/-- What the first byte of a character starts. -/
def Pending.lead (b : Nat) : Option Pending :=
  if b < 0x80 then some ⟨0, 0, 0, b⟩
  else if 0xC2 ≤ b ∧ b ≤ 0xDF then some ⟨1, 0x80, 0xBF, b - 0xC0⟩
  else if b = 0xE0 then some ⟨2, 0xA0, 0xBF, 0⟩
  else if b = 0xED then some ⟨2, 0x80, 0x9F, 0xD⟩
  else if 0xE1 ≤ b ∧ b ≤ 0xEF then some ⟨2, 0x80, 0xBF, b - 0xE0⟩
  else if b = 0xF0 then some ⟨3, 0x90, 0xBF, 0⟩
  else if b = 0xF4 then some ⟨3, 0x80, 0x8F, 4⟩
  else if 0xF1 ≤ b ∧ b ≤ 0xF3 then some ⟨3, 0x80, 0xBF, b - 0xF0⟩
  else none

/-- The character after one more of its bytes, if that byte can follow. -/
def Pending.next (p : Pending) (b : Nat) : Option Pending :=
  if p.least ≤ b ∧ b ≤ p.greatest then
    some ⟨p.owed - 1, 0x80, 0xBF, p.code * 64 + (b - 0x80)⟩
  else none

/-! ## Strict reading -/

/-- Reads on inside the character `p`; `done` holds the characters so far, last first. -/
def decodeFrom (p : Option Pending) (done : List Char) : List UInt8 → Option (List Char)
  | [] =>
    match p with
    | none => some done.reverse
    | some _ => none
  | b :: rest =>
    match (match p with | none => Pending.lead b.toNat | some q => q.next b.toNat) with
    | none => none
    | some q =>
      if q.owed = 0 then decodeFrom none (Char.ofNat q.code :: done) rest
      else decodeFrom (some q) done rest

/-- The text that the bytes spell, if they are UTF-8. -/
def ofBytes? (bs : List UInt8) : Option String :=
  (decodeFrom none [] bs).map String.ofList

/-! ## Lenient reading -/

/-- The character that stands for bytes that spell none. -/
def replacement : Char := Char.ofNat 0xFFFD

/-- Reads on inside the character `p`, writing the replacement for what spells nothing. -/
def decodeLenientFrom (p : Option Pending) (done : List Char) : List UInt8 → List Char
  | [] =>
    match p with
    | none => done.reverse
    | some _ => (replacement :: done).reverse
  | b :: rest =>
    match p.bind (fun q => q.next b.toNat) with
    | some q =>
      if q.owed = 0 then decodeLenientFrom none (Char.ofNat q.code :: done) rest
      else decodeLenientFrom (some q) done rest
    | none =>
      let done := if p.isSome then replacement :: done else done
      match Pending.lead b.toNat with
      | none => decodeLenientFrom none (replacement :: done) rest
      | some q =>
        if q.owed = 0 then decodeLenientFrom none (Char.ofNat q.code :: done) rest
        else decodeLenientFrom (some q) done rest

/-- The text that the bytes spell, with the replacement where they spell none. -/
def ofBytesLenient (bs : List UInt8) : String :=
  String.ofList (decodeLenientFrom none [] bs)

/-! ## Small facts -/

/-- The bytes of the empty text. -/
@[simp] theorem bytes_empty : bytes "" = [] := rfl

/-- The bytes of two texts in a row are the bytes of each in a row. -/
theorem bytes_append (s t : String) : bytes (s ++ t) = bytes s ++ bytes t := by
  simp [bytes]

end StorageControl.Text
