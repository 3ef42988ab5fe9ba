/-
# Digits

A number is written with its digits, of which the first is a zero only if the number is zero. The
shortest decimal of a binary64 value that is not zero is not zero either, so it has a digit to begin
with.
-/
import Mathlib.Data.Nat.Digits.Defs
import StorageControl.Decimal.Shortest
import StorageControl.Json.Printer
import StorageControl.Proofs.Numeral
import StorageControl.Proofs.Utf8

namespace StorageControl

/-! ## Bytes of characters -/

namespace Text

variable {c : Char} {cs ds : List Char}

/-- The bytes of some characters. -/
def spell (cs : List Char) : List UInt8 :=
  cs.flatMap String.utf8EncodeChar

theorem bytes_eq_spell (s : String) : bytes s = spell s.toList := rfl

@[simp] theorem spell_nil : spell [] = [] := rfl

@[simp] theorem spell_append : spell (cs ++ ds) = spell cs ++ spell ds :=
  List.flatMap_append

theorem spell_cons : spell (c :: cs) = String.utf8EncodeChar c ++ spell cs :=
  List.flatMap_cons

/-- A small character is one byte. -/
theorem spell_cons_of_lt (h : c.toNat < 128) :
    spell (c :: cs) = UInt8.ofNat c.toNat :: spell cs := by
  rw [spell_cons, utf8EncodeChar_of_lt h, List.singleton_append]

end Text

/-! ## Digits -/

namespace Decimal

open Text (spell)

variable {n : Nat} {c : Char} {cs : List Char}

/-- A digit is one byte. -/
theorem exists_byte_of_isDigit (h : c.isDigit = true) :
    ∃ b, String.utf8EncodeChar c = [b] ∧ isDigit b = true ∧ b.toNat = c.toNat := by
  obtain ⟨hlow, hhigh⟩ := Char.isDigit_iff_toNat.1 h
  simp only [Char.reduceToNat] at hlow hhigh
  have hbyte := Text.toNat_ofNat_of_lt (n := c.toNat) (by omega)
  refine ⟨_, Text.utf8EncodeChar_of_lt (by omega), ?_, hbyte⟩
  rw [isDigit_iff, UInt8.le_iff_toNat_le, UInt8.le_iff_toNat_le, hbyte]
  exact ⟨hlow, hhigh⟩

theorem isDigit_of_mem_spell (h : ∀ c ∈ cs, c.isDigit = true) :
    ∀ b ∈ spell cs, isDigit b = true := by
  intro b hb
  obtain ⟨c, hc, hmem⟩ := List.mem_flatMap.1 hb
  obtain ⟨d, hd, hdigit, -⟩ := exists_byte_of_isDigit (h c hc)
  rw [hd, List.mem_singleton] at hmem
  exact hmem ▸ hdigit

/-- The bytes of digits have the values of the digits. -/
theorem foldl_spell (h : ∀ c ∈ cs, c.isDigit = true) (k : Nat) :
    (digitValues (spell cs)).foldl (fun n d => n * 10 + d) k = Nat.ofDigitChars 10 cs k := by
  induction cs generalizing k with
  | nil => rfl
  | cons c cs ih =>
    obtain ⟨hc, hcs⟩ := List.forall_mem_cons.1 h
    obtain ⟨b, hb, -, hcode⟩ := exists_byte_of_isDigit hc
    rw [Text.spell_cons, hb, List.singleton_append, digitValues, List.map_cons, List.foldl_cons,
      ← digitValues, ih hcs, hcode, Nat.mul_comm]
    rfl

theorem isDigit_of_mem_digits (h : c ∈ digits n) : c.isDigit = true :=
  Nat.isDigit_of_mem_toDigits (by decide) (by decide) h

/-- The digits of a number are read as the number. -/
theorem ofDigits_digits (n : Nat) : ofDigits (digitValues (spell (digits n))) = n := by
  rw [ofDigits, foldl_spell fun _ => isDigit_of_mem_digits]
  exact Nat.ofDigitChars_ten_toDigits

/-- Numbers with the same digits are the same. -/
theorem digits_inj {m n : Nat} (h : digits m = digits n) : m = n := by
  rw [← ofDigits_digits m, h, ofDigits_digits]

/-- Whole numbers with the same text are the same, since a minus is not a digit. -/
theorem eq_of_toString_eq {i j : Int} (h : toString i = toString j) : i = j := by
  have hminus (m n : Nat) : digits m ≠ '-' :: digits n := fun heq =>
    absurd (isDigit_of_mem_digits (n := m) (heq ▸ List.mem_cons_self)) (by decide)
  have htext : (toString i).toList = (toString j).toList := congrArg String.toList h
  cases i with
  | ofNat m =>
    cases j with
    | ofNat n =>
      have hdigits : digits m = digits n := by
        simpa [digits, toString, Int.repr, Nat.repr] using htext
      rw [digits_inj hdigits]
    | negSucc n =>
      refine absurd ?_ (hminus m (n + 1))
      simpa [digits, toString, Int.repr, Nat.repr] using htext
  | negSucc m =>
    cases j with
    | ofNat n =>
      refine absurd ?_ (hminus n (m + 1))
      simpa [digits, toString, Int.repr, Nat.repr] using htext.symm
    | negSucc n =>
      have hdigits : digits (m + 1) = digits (n + 1) := by
        simpa [digits, toString, Int.repr, Nat.repr] using htext
      rw [Nat.succ.inj (digits_inj hdigits)]

/-- The digits of a number begin with zero only if the number is zero. -/
theorem exists_digits_eq (h : n ≠ 0) : ∃ c cs, digits n = c :: cs ∧ c ≠ '0' := by
  induction n using Nat.strongRecOn with
  | _ n ih =>
  have hchar : ∀ k < 10, k.digitChar = '0' → k = 0 := by decide
  rw [digits, Nat.toDigits_eq_if (by decide)]
  split
  · rename_i hn
    exact ⟨n.digitChar, [], rfl, fun heq => h (hchar n hn heq)⟩
  · obtain ⟨c, cs, hdigits, hc⟩ := ih (n / 10) (by omega) (by omega)
    rw [digits] at hdigits
    exact ⟨c, _, by rw [hdigits]; rfl, hc⟩

/-! ## Digits of values that are not zero -/

namespace Rounding

variable {r : Rounding} {c : Nat} {e f : Int}

/-- Zero lies in no interval of positive numbers. -/
theorem ne_zero_of_covers (hlow : 0 < r.low) (h : r.covers c e = true) : c ≠ 0 := by
  rintro rfl
  have hunit : 0 < r.low * Nat.pow 10 (-e).toNat :=
    Nat.mul_pos hlow (Nat.pow_pos (by decide))
  simp only [covers, Nat.zero_mul] at h
  split at h
  · simp only [Bool.and_eq_true, decide_eq_true_eq] at h
    omega
  · simp at h

/-- The multiple that is nearest to a value is not zero, if zero is not in the interval. -/
theorem ne_zero_of_nearest? (hlow : 0 < r.low) (h : r.nearest? e = some c) : c ≠ 0 := by
  unfold nearest? at h
  simp only at h
  split at h
  · cases h
  · rename_i hcovers _
    cases h
    exact ne_zero_of_covers hlow hcovers
  · cases h
    exact Nat.succ_ne_zero _
  · rename_i hcovers _
    have hfloor := ne_zero_of_covers hlow hcovers
    split at h
    · cases h
      exact hfloor
    · cases h
      exact Nat.succ_ne_zero _
    · split at h <;> cases h
      · exact hfloor
      · exact Nat.succ_ne_zero _

theorem floor_pos_iff (hr : 0 < r.denominator) :
    0 < r.floor e ↔ r.denominator * Nat.pow 10 e.toNat ≤ r.value * Nat.pow 10 (-e).toNat := by
  rw [floor, Nat.div_pos_iff]
  exact ⟨fun h => h.2, fun h => ⟨Nat.mul_pos hr (Nat.pow_pos (by decide)), h⟩⟩

/-- On a finer grid there are more multiples below a value. -/
theorem floor_pos_of_le (hr : 0 < r.denominator) (h : 0 < r.floor e) (hle : f ≤ e) :
    0 < r.floor f := by
  rw [floor_pos_iff hr] at h ⊢
  calc r.denominator * Nat.pow 10 f.toNat
      ≤ r.denominator * Nat.pow 10 e.toNat :=
        Nat.mul_le_mul_left _ (Nat.pow_le_pow_right (by decide) (by omega))
    _ ≤ r.value * Nat.pow 10 (-e).toNat := h
    _ ≤ r.value * Nat.pow 10 (-f).toNat :=
        Nat.mul_le_mul_left _ (Nat.pow_le_pow_right (by decide) (by omega))

/-- The leading digit is not zero, unless it is looked for in vain. -/
theorem floor_leading_pos (r : Rounding) (n : Nat) :
    0 < r.floor (r.leading n) ∨ r.leading n = -325 := by
  induction n with
  | zero => exact .inr rfl
  | succ n ih =>
    rw [leading]
    split
    · exact .inl ‹_›
    · exact ih

/-- A value that is not zero, with an interval of positive numbers around it. -/
structure Positive (r : Rounding) : Prop where
  low : 0 < r.low
  denominator : 0 < r.denominator
  /-- The value is no less than the smallest one. -/
  value : 0 < r.floor (-325 - 16)

theorem two_pow_le_ten_pow (k : Nat) : 2 ^ (35 * k) ≤ 10 ^ (11 * k) := by
  rw [Nat.pow_mul, Nat.pow_mul]
  exact Nat.pow_le_pow_left (by decide) k

/-- A number that is not zero has such a value. -/
theorem positive_ofBits {bits : Nat} (hlt : bits < Nat.pow 2 63) (hbits : bits ≠ 0) :
    (ofBits bits).Positive := by
  have hpow (k : Nat) : 0 < Nat.pow 2 k := Nat.pow_pos (by decide)
  have hexponents : Nat.pow 2 63 = Nat.pow 2 52 * Nat.pow 2 11 := by decide
  -- The significand is not zero: without a leading one its digits are not.
  have hsignificand : 0 < if bits / Nat.pow 2 52 % Nat.pow 2 11 = 0 then bits % Nat.pow 2 52
      else Nat.pow 2 52 + bits % Nat.pow 2 52 := by
    split
    · rename_i hfield
      have hquotient : bits / Nat.pow 2 52 < Nat.pow 2 11 :=
        Nat.div_lt_of_lt_mul (hexponents ▸ hlt)
      rw [Nat.mod_eq_of_lt hquotient] at hfield
      have hdiv := Nat.div_add_mod bits (Nat.pow 2 52)
      rw [hfield] at hdiv
      omega
    · exact Nat.lt_of_lt_of_le (hpow 52) (Nat.le_add_right _ _)
  have hshift : 1 ≤ if bits / Nat.pow 2 52 % Nat.pow 2 11 = 0 then 1
      else bits / Nat.pow 2 52 % Nat.pow 2 11 := by
    split
    · exact Nat.le_refl 1
    · exact Nat.pos_of_ne_zero ‹_›
  have hdenominator : 0 < (ofBits bits).denominator := hpow _
  refine ⟨?_, hdenominator, ?_⟩
  · have hbelow (p : Prop) [Decidable p] : (if p then 1 else 2) ≤ 2 := by
      split <;> decide
    exact Nat.mul_pos (Nat.sub_pos_of_lt (Nat.lt_of_le_of_lt (hbelow _) (by omega))) (hpow _)
  · have hvalue : 1 ≤ (ofBits bits).value :=
      Nat.mul_pos (Nat.mul_pos (by decide) hsignificand) (hpow _)
    obtain ⟨k, hk⟩ : ∃ k, k = 31 := ⟨31, rfl⟩
    have hsmall : (ofBits bits).denominator ≤ 2 ^ (35 * k) :=
      Nat.pow_le_pow_right (by decide) (by omega)
    have hzero : (-325 - 16 : Int).toNat = 0 := rfl
    have hlarge : (-(-325 - 16) : Int).toNat = 11 * k := by rw [hk]; rfl
    rw [floor_pos_iff hdenominator, hzero, hlarge]
    calc (ofBits bits).denominator * 10 ^ 0
        = (ofBits bits).denominator := Nat.mul_one _
      _ ≤ 10 ^ (11 * k) := Nat.le_trans hsmall (two_pow_le_ten_pow k)
      _ ≤ (ofBits bits).value * 10 ^ (11 * k) := Nat.le_mul_of_pos_left _ hvalue

/-- The digits that are found are not all zeros. -/
theorem Positive.ne_zero_of_search (hr : r.Positive) (n left k : Nat) :
    (r.search (r.leading k) n left).1 ≠ 0 := by
  induction left generalizing n with
  | zero =>
    refine Nat.ne_of_gt ?_
    rcases r.floor_leading_pos k with h | h
    · exact floor_pos_of_le hr.denominator h (by omega)
    · rw [h]
      exact hr.value
  | succ left ih =>
    rw [search]
    split
    · exact ne_zero_of_nearest? hr.low ‹_›
    · exact ih _

end Rounding

/-- A number that is not zero has a digit left without its trailing zeros. -/
theorem ne_zero_of_stripZeros (fuel : Nat) {c : Nat} (hc : c ≠ 0) (e : Int) :
    (stripZeros fuel (c, e)).1 ≠ 0 := by
  induction fuel generalizing c e with
  | zero => exact hc
  | succ fuel ih =>
    rw [stripZeros]
    split
    · exact ih (by omega) _
    · exact hc

/-- The shortest decimal of a number that is not zero is not zero. -/
theorem ne_zero_of_shortest {bits : Nat} (hlt : bits < Nat.pow 2 63) (hbits : bits ≠ 0) :
    (shortest bits).1 ≠ 0 :=
  ne_zero_of_stripZeros 20 ((Rounding.positive_ofBits hlt hbits).ne_zero_of_search 0 17 634) _

end Decimal

end StorageControl
