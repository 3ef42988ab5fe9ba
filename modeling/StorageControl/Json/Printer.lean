/-
# The written form of values

A value is written without blanks, the members of an object in the order of their keys. Inside a
text only what must be escaped is: the quote, the backslash and the control characters below the
space. So a written value never holds a line break, and one value to a line frames a stream.
-/
import StorageControl.Decimal.Shortest
import StorageControl.Json.Basic
import StorageControl.Text.Numeral
import StorageControl.Text.Utf8

namespace StorageControl

/-! ## Numbers -/

namespace Decimal

/-- How a decimal is laid out: with a point while its point stands at most `positional` digits
after the first digit or at most `leadingZeros` zeros before it, and with an exponent otherwise. -/
structure Layout where
  positional : Nat
  leadingZeros : Nat
deriving Repr

/-- The digits of a natural number. -/
def digits (n : Nat) : List Char :=
  Nat.toDigits 10 n

/-- A whole number in decimal. -/
def writeInt : Int → List Char
  | .ofNat n => digits n
  | .negSucc n => '-' :: digits (n + 1)

/-- The decimal `c · 10 ^ e`, laid out. -/
def Layout.write (l : Layout) (c : Nat) (e : Int) : List Char :=
  let ds := digits c
  let point : Int := ds.length + e
  if 0 ≤ e ∧ point ≤ l.positional then ds ++ List.replicate e.toNat '0' ++ ['.', '0']
  else if 0 < point ∧ point ≤ l.positional then
    ds.take point.toNat ++ '.' :: ds.drop point.toNat
  else if -(l.leadingZeros : Int) < point ∧ point ≤ 0 then
    '0' :: '.' :: (List.replicate (-point).toNat '0' ++ ds)
  else
    match ds with
    | [] => []
    | [d] => d :: 'e' :: writeInt (point - 1)
    | d :: rest => (d :: '.' :: rest) ++ 'e' :: writeInt (point - 1)

end Decimal

namespace Number

/-- Numbers that are not whole have a point up to 10¹⁶ and down to 10⁻⁵. -/
def layout : Decimal.Layout := ⟨16, 5⟩

/-- The digits of a number. -/
def write : Number → List Char
  | .whole n => Decimal.writeInt n
  | .real bits =>
    let magnitude := bits.toNat % Nat.pow 2 63
    let text :=
      if magnitude = 0 then ['0', '.', '0']
      else
        let (c, e) := Decimal.shortest magnitude
        layout.write c e
    if bits.toNat < Nat.pow 2 63 then text else '-' :: text

end Number

/-! ## Texts -/

namespace Json

/-- A character inside a written text. -/
def escape (c : Char) : List Char :=
  if c = '"' then ['\\', '"']
  else if c = '\\' then ['\\', '\\']
  else if c = '\n' then ['\\', 'n']
  else if c = '\r' then ['\\', 'r']
  else if c = '\t' then ['\\', 't']
  else if c.toNat = 8 then ['\\', 'b']
  else if c.toNat = 12 then ['\\', 'f']
  else if c.toNat < 32 then
    ['\\', 'u', '0', '0', Text.hexDigit (c.toNat / 16), Text.hexDigit (c.toNat % 16)]
  else [c]

/-- A text between quotes. -/
def quote (s : String) : List Char :=
  '"' :: (s.toList.flatMap escape ++ ['"'])

/-! ## Values -/

mutual

/-- The characters of a written value. -/
def write : Json → List Char
  | .null => ['n', 'u', 'l', 'l']
  | .bool true => ['t', 'r', 'u', 'e']
  | .bool false => ['f', 'a', 'l', 's', 'e']
  | .num n => n.write
  | .str s => quote s
  | .arr items => '[' :: (writeItems items ++ [']'])
  | .obj members => '{' :: (writeMembers members ++ ['}'])

/-- Written values with commas between them. -/
def writeItems : List Json → List Char
  | [] => []
  | v :: rest => write v ++ writeMoreItems rest

/-- Written values, each after a comma. -/
def writeMoreItems : List Json → List Char
  | [] => []
  | v :: rest => ',' :: (write v ++ writeMoreItems rest)

/-- Written members with commas between them. -/
def writeMembers : List (String × Json) → List Char
  | [] => []
  | (k, v) :: rest => quote k ++ ':' :: (write v ++ writeMoreMembers rest)

/-- Written members, each after a comma. -/
def writeMoreMembers : List (String × Json) → List Char
  | [] => []
  | (k, v) :: rest => ',' :: (quote k ++ ':' :: (write v ++ writeMoreMembers rest))

end

/-- The written form of a value. -/
def print (v : Json) : String :=
  String.ofList (write v)

end Json

end StorageControl
