/-
# Numerals

Digits to a base of at most sixteen, the numbers that rows of them stand for, and whole numbers
written with a sign.
-/

namespace StorageControl.Text

/-! ## Digits -/

/-- The value of a digit to a base of at most sixteen. -/
def digit? (base : Nat) (c : Char) : Option Nat :=
  let value :=
    if '0' ≤ c ∧ c ≤ '9' then c.toNat - '0'.toNat
    else if 'a' ≤ c ∧ c ≤ 'f' then c.toNat - 'a'.toNat + 10
    else if 'A' ≤ c ∧ c ≤ 'F' then c.toNat - 'A'.toNat + 10
    else base
  if value < base then some value else none

/-- The digit of base sixteen with a value, as a small letter from ten on. -/
def hexDigit (value : Nat) : Char :=
  if value < 10 then Char.ofNat (48 + value) else Char.ofNat (87 + value)

/-- The digits in front of a text, and the rest. -/
def splitDigits (base : Nat) : List Char → List Nat × List Char
  | [] => ([], [])
  | c :: rest =>
    match digit? base c with
    | none => ([], c :: rest)
    | some d =>
      let (digits, rest) := splitDigits base rest
      (d :: digits, rest)

/-- The number that digits stand for. -/
def valueOf (base : Nat) (digits : List Nat) : Nat :=
  digits.foldl (fun n d => n * base + d) 0

/-! ## Whole numbers -/

/-- The number that a text of decimal digits writes. There may be zeros in front. -/
def natural? (s : List Char) : Option Nat :=
  let (digits, rest) := splitDigits 10 s
  if digits.isEmpty || !rest.isEmpty then none else some (valueOf 10 digits)

/-- The number that a text of decimal digits writes, with or without a sign in front. -/
def integer? : List Char → Option Int
  | '-' :: rest => (natural? rest).map fun n => -(n : Int)
  | '+' :: rest => (natural? rest).map fun n => (n : Int)
  | s => (natural? s).map fun n => (n : Int)

end StorageControl.Text
