/-
# Decimal literals as binary64 values

A literal with a fraction or an exponent, or one too large for 64 bits, stands for a binary64
value. The significand keeps the leading digits that fit 64 bits, the digits that do not fit only
move the exponent, and the value is the significand multiplied or divided by the power of ten in
binary64 arithmetic. A literal whose value would be infinite has none.
-/

namespace StorageControl.Decimal

/-! ## Literals -/

/-- The digits of a literal, in reading order. The fraction and the exponent may be missing; the
exponent's sign is `true` for a minus. -/
structure Literal where
  negative : Bool
  whole : List Nat
  fraction : Option (List Nat) := none
  exponent : Option (Bool × List Nat) := none
deriving DecidableEq, Repr

/-- The largest significand. -/
def significandBound : Nat := UInt64.size - 1

/-- The largest exponent that is read digit by digit. -/
def exponentBound : Nat := Nat.pow 2 31 - 1

/-- The number spelled by digits. -/
def ofDigits (digits : List Nat) : Nat :=
  digits.foldl (fun n d => n * 10 + d) 0

/-! ## The significand -/

/-- Takes digits into the significand while it fits; gives it with the digits left over. -/
def takeDigits (significand : Nat) : List Nat → Nat × List Nat
  | [] => (significand, [])
  | d :: rest =>
    if significand * 10 + d ≤ significandBound then takeDigits (significand * 10 + d) rest
    else (significand, d :: rest)

/-- The significand of a literal and the power of ten that its digits alone give it. -/
def Literal.significand (l : Literal) : Nat × Int :=
  let (s, beyond) := takeDigits 0 l.whole
  match l.fraction with
  | none => (s, beyond.length)
  | some digits =>
    let (s', left) := takeDigits s digits
    (s', (beyond.length : Int) - ((digits.length - left.length : Nat) : Int))

/-! ## The value -/

/-- The binary64 power of ten. -/
def powerOfTen (n : Nat) : Float :=
  Float.ofScientific 1 false n

/-- Divides by a power of ten, in steps that are themselves binary64 values. -/
def divideByPower (f : Float) (n : Nat) : Float :=
  if n ≤ 308 then f / powerOfTen n
  else if f == 0.0 then f
  else divideByPower (f / powerOfTen 308) (n - 308)
termination_by n
decreasing_by omega

/-- Multiplies by a power of ten, unless the product is infinite. -/
def multiplyByPower (f : Float) (n : Nat) : Option Float :=
  if n ≤ 308 then
    let g := f * powerOfTen n
    if g.isInf then none else some g
  else if f == 0.0 then some f
  else none

/-- The significand at the given power of ten. -/
def scale (significand : Nat) : Int → Option Float
  | .ofNat n => multiplyByPower (UInt64.ofNat significand).toFloat n
  | .negSucc n => some (divideByPower (UInt64.ofNat significand).toFloat (n + 1))

/-- The magnitude of a literal. An exponent too long to be read makes it zero, or, when the
significand is not zero and the exponent not negative, infinite. -/
def Literal.magnitude (l : Literal) : Option Float :=
  let (s, e) := l.significand
  match l.exponent with
  | none => scale s e
  | some (minus, digits) =>
    let n := ofDigits digits
    if n ≤ exponentBound then scale s (if minus then e - n else e + n)
    else if s ≠ 0 ∧ ¬ minus then none
    else some 0.0

/-- The bits of the value of a literal, unless it is infinite. -/
def Literal.binary64? (l : Literal) : Option UInt64 :=
  l.magnitude.map fun f => (if l.negative then -f else f).toBits

end StorageControl.Decimal
