/-
# Socket addresses

The address and port of a server: four decimal numbers with points between them, or eight
hexadecimal groups in brackets of which one run of zeros may be left out. Writing an address gives
its shortest form.
-/
import StorageControl.Json.Printer
import StorageControl.Text.Numeral

namespace StorageControl.Config

/-! ## Addresses -/

/-- An address and a port. The eight groups of a long address belong to a scope, which is zero if
none is named. -/
inductive SocketAddress where
  | v4 (a b c d : UInt8) (port : UInt16)
  | v6 (groups : List UInt16) (scope : UInt32) (port : UInt16)
deriving DecidableEq, Repr

namespace SocketAddress

/-! ## Reading numbers -/

/-- Reads a number below `bound`, with leading zeros allowed. -/
def number? (base bound : Nat) (s : List Char) : Option (Nat × List Char) :=
  let (digits, rest) := Text.splitDigits base s
  let n := Text.valueOf base digits
  if digits.isEmpty ∨ n ≥ bound then none else some (n, rest)

/-- Reads one of the four numbers of a short address: at most three digits and no leading zero. -/
def octet? (s : List Char) : Option (UInt8 × List Char) :=
  let (digits, rest) := Text.splitDigits 10 s
  let n := Text.valueOf 10 digits
  if digits.isEmpty ∨ digits.length > 3 ∨ (digits.length > 1 ∧ digits.head? = some 0) ∨ n ≥ 256 then
    none
  else some (UInt8.ofNat n, rest)

/-- Reads one group of a long address: at most four digits. -/
def group? (s : List Char) : Option (UInt16 × List Char) :=
  let (digits, rest) := Text.splitDigits 16 s
  if digits.isEmpty ∨ digits.length > 4 then none
  else some (UInt16.ofNat (Text.valueOf 16 digits), rest)

/-- Reads one given character. -/
def mark? (c : Char) : List Char → Option (List Char)
  | [] => none
  | d :: rest => if d = c then some rest else none

/-! ## Reading addresses -/

/-- Reads the four numbers of a short address. -/
def short? (s : List Char) : Option ((UInt8 × UInt8 × UInt8 × UInt8) × List Char) := do
  let (a, s) ← octet? s
  let (b, s) ← octet? (← mark? '.' s)
  let (c, s) ← octet? (← mark? '.' s)
  let (d, s) ← octet? (← mark? '.' s)
  return ((a, b, c, d), s)

/-- A group out of two numbers of a short address. -/
def pair (a b : UInt8) : UInt16 :=
  UInt16.ofNat (a.toNat * 256 + b.toNat)

/-- What stands in front of the next group: nothing before the first one, else a colon. -/
def separated? (first : Bool) (s : List Char) : Option (List Char) :=
  if first then some s else mark? ':' s

/-- Reads up to `limit` groups. The last two may be written as a short address; whether they were
is told along with the groups. -/
def groups (first : Bool) : (limit : Nat) → List Char → (List UInt16 × Bool) × List Char
  | 0, s => (([], false), s)
  | limit + 1, s =>
    let embedded := if limit = 0 then none else (separated? first s).bind short?
    match embedded with
    | some ((a, b, c, d), rest) => (([pair a b, pair c d], true), rest)
    | none =>
      match (separated? first s).bind group? with
      | none => (([], false), s)
      | some (g, rest) =>
        let ((more, short), rest) := groups false limit rest
        ((g :: more, short), rest)

/-- Reads the groups of a long address. Two colons stand for the groups that are left out, of
which there is at least one. -/
def long? (s : List Char) : Option (List UInt16 × List Char) :=
  let ((front, short), rest) := groups true 8 s
  if front.length = 8 then some (front, rest)
  else if short then none
  else do
    let rest ← mark? ':' (← mark? ':' rest)
    let ((back, _), rest) := groups true (7 - front.length) rest
    let zeros := List.replicate (8 - front.length - back.length) 0
    return (front ++ zeros ++ back, rest)

/-- Reads the scope of a long address, which is zero if there is none to read. -/
def scope (s : List Char) : Nat × List Char :=
  match (mark? '%' s).bind (number? 10 UInt32.size) with
  | some (n, rest) => (n, rest)
  | none => (0, s)

/-- Reads a port, which ends the text. -/
def port? (s : List Char) : Option UInt16 := do
  let (n, rest) ← number? 10 UInt16.size (← mark? ':' s)
  if rest.isEmpty then some (UInt16.ofNat n) else none

/-- Reads an address with a port. -/
def parse? (text : String) : Option SocketAddress :=
  let s := text.toList
  match short? s with
  | some ((a, b, c, d), rest) => (port? rest).map (.v4 a b c d)
  | none => do
    let (gs, rest) ← long? (← mark? '[' s)
    let (n, rest) := scope rest
    let p ← port? (← mark? ']' rest)
    return .v6 gs (UInt32.ofNat n) p

/-! ## Writing -/

/-- A number in decimal digits. -/
def decimal (n : Nat) : String :=
  String.ofList (Decimal.digits n)

/-- A number in hexadecimal digits. -/
def hexadecimal (n : UInt16) : String :=
  String.ofList (Nat.toDigits 16 n.toNat)

/-- Groups with colons between them. -/
def writeGroups (gs : List UInt16) : String :=
  String.intercalate ":" (gs.map hexadecimal)

/-- How many zeros a list starts with. -/
def zerosAhead (gs : List UInt16) : Nat :=
  (gs.takeWhile (· == 0)).length

/-- The start and the length of the first of the longest runs of zeros. -/
def longestRun : List UInt16 → Nat × Nat
  | [] => (0, 0)
  | g :: gs =>
    let here := zerosAhead (g :: gs)
    let (start, length) := longestRun gs
    if length > here then (start + 1, length) else (0, here)

/-- A long address. One that stands for a short address is written with it, and the longest run of
zeros is left out if there is more than one zero in it. -/
def writeLong (gs : List UInt16) : String :=
  match gs with
  | [0, 0, 0, 0, 0, 0xffff, g, h] =>
    "::ffff:" ++ decimal (g.toNat / 256) ++ "." ++ decimal (g.toNat % 256) ++ "." ++
      decimal (h.toNat / 256) ++ "." ++ decimal (h.toNat % 256)
  | _ =>
    let (start, length) := longestRun gs
    if length > 1 then writeGroups (gs.take start) ++ "::" ++ writeGroups (gs.drop (start + length))
    else writeGroups gs

/-- Writes an address with its port. -/
def print : SocketAddress → String
  | .v4 a b c d port =>
    decimal a.toNat ++ "." ++ decimal b.toNat ++ "." ++ decimal c.toNat ++ "." ++
      decimal d.toNat ++ ":" ++ decimal port.toNat
  | .v6 gs scope port =>
    let zone := if scope = 0 then "" else "%" ++ decimal scope.toNat
    "[" ++ writeLong gs ++ zone ++ "]:" ++ decimal port.toNat

end SocketAddress

end StorageControl.Config
