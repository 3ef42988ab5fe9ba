/-
# The fewest digits that read back

Every finite binary64 value is `m · 2 ^ q` for naturals `m` and integers `q`, and is the nearest
such value to each real in an interval around it. Among the decimals in that interval the ones
with the fewest digits are taken, and of these the nearest to the value. All comparisons are made
in exact natural arithmetic.
-/

namespace StorageControl.Decimal

/-! ## Values and their intervals -/

/-- A positive value and the ends of the interval that rounds to it, over one denominator. -/
structure Rounding where
  low : Nat
  value : Nat
  high : Nat
  denominator : Nat
  /-- The ends themselves round to the value. -/
  closed : Bool
deriving Repr

/-- The interval of the magnitude that the lower 63 of the given bits spell. -/
def Rounding.ofBits (bits : Nat) : Rounding :=
  let field := bits / Nat.pow 2 52 % Nat.pow 2 11
  let fraction := bits % Nat.pow 2 52
  let m := if field = 0 then fraction else Nat.pow 2 52 + fraction
  -- The value is `m` units; `up` and `down` are units and denominators of a quarter unit.
  let shift := if field = 0 then 1 else field
  let up := Nat.pow 2 (shift - 1077)
  let down := Nat.pow 2 (1077 - shift)
  let below := if fraction = 0 ∧ 1 < field then 1 else 2
  { low := (4 * m - below) * up
    value := 4 * m * up
    high := (4 * m + 2) * up
    denominator := down
    closed := m % 2 = 0 }

/-- The decimal `c · 10 ^ e` lies in the interval. -/
def Rounding.covers (r : Rounding) (c : Nat) (e : Int) : Bool :=
  let scaled := c * Nat.pow 10 e.toNat * r.denominator
  let unit := Nat.pow 10 (-e).toNat
  if r.closed then decide (r.low * unit ≤ scaled) && decide (scaled ≤ r.high * unit)
  else decide (r.low * unit < scaled) && decide (scaled < r.high * unit)

/-! ## Grids of decimals -/

/-- The greatest multiple of `10 ^ e` not above the value, in units of `10 ^ e`. -/
def Rounding.floor (r : Rounding) (e : Int) : Nat :=
  r.value * Nat.pow 10 (-e).toNat / (r.denominator * Nat.pow 10 e.toNat)

/-- Twice the value lies above the middle between the multiples `c` and `c + 1` of `10 ^ e`, on
it, or below it. -/
def Rounding.compareMiddle (r : Rounding) (c : Nat) (e : Int) : Ordering :=
  compare (2 * r.value * Nat.pow 10 (-e).toNat)
    ((2 * c + 1) * (r.denominator * Nat.pow 10 e.toNat))

/-- The multiple of `10 ^ e` in the interval that is nearest to the value; of two equally near
ones the even one. -/
def Rounding.nearest? (r : Rounding) (e : Int) : Option Nat :=
  let c := r.floor e
  match r.covers c e, r.covers (c + 1) e with
  | false, false => none
  | true, false => some c
  | false, true => some (c + 1)
  | true, true =>
    match r.compareMiddle c e with
    | .lt => some c
    | .gt => some (c + 1)
    | .eq => some (if c % 2 = 0 then c else c + 1)

/-- The power of ten of the value's leading digit, looked for from `10 ^ (n - 325)` downwards. -/
def Rounding.leading (r : Rounding) : Nat → Int
  | 0 => -325
  | n + 1 => if 0 < r.floor ((n : Int) - 324) then (n : Int) - 324 else r.leading n

/-! ## The fewest digits -/

/-- The first hit on the grids of `n + 1`, `n + 2`, … digits, of which `left` are tried. -/
def Rounding.search (r : Rounding) (leading : Int) (n : Nat) : Nat → Nat × Int
  | 0 => (r.floor (leading - 16), leading - 16)
  | left + 1 =>
    match r.nearest? (leading - n) with
    | some c => (c, leading - n)
    | none => r.search leading (n + 1) left

/-- A decimal without the zeros at the end of its digits; `fuel` bounds how many there are. -/
def stripZeros : Nat → Nat × Int → Nat × Int
  | 0, d => d
  | fuel + 1, (c, e) =>
    if c % 10 = 0 ∧ c ≠ 0 then stripZeros fuel (c / 10, e + 1) else (c, e)

/-- The digits and the power of ten of the shortest decimal for a positive magnitude. -/
def shortest (bits : Nat) : Nat × Int :=
  let r := Rounding.ofBits bits
  stripZeros 20 (r.search (r.leading 634) 0 17)

end StorageControl.Decimal
