/-
# Generated ids

Ids and page tokens that nobody chose are made of 122 random bits. They are written as UUIDs of
version 4, in small hexadecimal digits with hyphens.
-/
import StorageControl.Text.Numeral

namespace StorageControl.Uuid

/-- The last `count` digits of a number in base sixteen. -/
def digits : (count : Nat) → Nat → List Char
  | 0, _ => []
  | count + 1, n => digits count (n / 16) ++ [Text.hexDigit (n % 16)]

/-- How many bits are free. -/
def freeBits : Nat := 122

/-- The UUID of the given bits. Two digits are not free: one names the version, and the first two
bits of the other name the variant. -/
def text (bits : Nat) : String :=
  String.ofList <|
    digits 8 bits ++
      '-' :: digits 4 (bits / Nat.pow 2 32) ++
      '-' :: '4' :: digits 3 (bits / Nat.pow 2 48) ++
      '-' :: Text.hexDigit (8 + bits / Nat.pow 2 60 % 4) :: digits 3 (bits / Nat.pow 2 62) ++
      '-' :: digits 12 (bits / Nat.pow 2 74)

/-- As many digits are written as are asked for. -/
@[simp] theorem length_digits (count n : Nat) : (digits count n).length = count := by
  induction count generalizing n with
  | zero => rfl
  | succ count ih => simp [digits, ih]

end StorageControl.Uuid
