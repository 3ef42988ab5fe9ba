/-
# Beginnings of whole numbers

A reader inside a number knows what the bytes so far can be: a sign, a zero, the digits of a whole
number that does not begin with zero, or something with a point or an exponent. If the number turns
out to be whole, every part of it that could end where it is cut is a whole number as well, and lies
between zero and the number.
-/
import Mathlib.Data.List.TakeWhile
import StorageControl.Json.Reader

namespace StorageControl

open Decimal

/-! ## Literals of whole numbers -/

namespace Decimal

variable {digits : List UInt8}

theorem isDigit_iff {b : UInt8} : isDigit b = true ↔ 48 ≤ b ∧ b ≤ 57 := by
  simp [isDigit]

/-- More digits make a larger number. -/
theorem ofDigits_append (l m : List Nat) :
    ofDigits (l ++ m) = m.foldl (fun n d => n * 10 + d) (ofDigits l) := by
  rw [ofDigits, List.foldl_append, ofDigits]

theorem le_foldl_digits (n : Nat) (m : List Nat) : n ≤ m.foldl (fun n d => n * 10 + d) n := by
  induction m generalizing n with
  | nil => exact Nat.le_refl n
  | cons d m ih => exact Nat.le_trans (by omega) (ih (n * 10 + d))

theorem ofDigits_le_append (l m : List Nat) : ofDigits l ≤ ofDigits (l ++ m) := by
  rw [ofDigits_append]
  exact le_foldl_digits _ m

/-- A number that does not begin with zero is not zero. -/
theorem ofDigits_cons_pos {d : Nat} (h : 0 < d) (l : List Nat) : 0 < ofDigits (d :: l) :=
  Nat.lt_of_lt_of_le (by simpa [ofDigits] using h) (ofDigits_le_append [d] l)

/-- The literal of some digits. -/
theorem Literal.ofBytes_digits (h : ∀ b ∈ digits, isDigit b = true) :
    Literal.ofBytes digits = { negative := false, whole := digitValues digits } := by
  have hhead : (digits.head? == some 45) = false := by
    cases digits with
    | nil => rfl
    | cons d digits =>
      have hd := h d List.mem_cons_self
      simp only [List.head?_cons, beq_eq_false_iff_ne, ne_eq, Option.some.injEq]
      rintro rfl
      exact absurd hd (by decide)
  have htake : digits.takeWhile isDigit = digits := List.takeWhile_eq_self_iff.2 h
  have hdrop : digits.dropWhile isDigit = [] := List.dropWhile_eq_nil_iff.2 h
  rw [ofBytes, hhead]
  simp only [Bool.false_eq_true, if_false, htake, hdrop]
  rfl

/-- The literal of some digits after a minus. -/
theorem Literal.ofBytes_minus (h : ∀ b ∈ digits, isDigit b = true) :
    Literal.ofBytes (45 :: digits) = { negative := true, whole := digitValues digits } := by
  have htake : digits.takeWhile isDigit = digits := List.takeWhile_eq_self_iff.2 h
  have hdrop : digits.dropWhile isDigit = [] := List.dropWhile_eq_nil_iff.2 h
  rw [ofBytes]
  simp only [List.head?_cons, BEq.rfl, if_true, List.tail_cons, htake, hdrop]
  rfl

/-- Every byte after the digits begins an exponent. -/
theorem Literal.readExponent_eq_none {bs : List UInt8} (h : readExponent bs = none) : bs = [] := by
  unfold readExponent at h
  split at h <;> first | rfl | cases h

end Decimal

namespace Number

/-- A literal stands for a whole number if it has no fraction and no exponent, and the number fits
64 bits. -/
theorem ofLiteral?_eq_whole_iff {l : Literal} {k : Int} :
    ofLiteral? l = some (.whole k) ↔
      l.fraction = none ∧ l.exponent = none ∧
        ((l.negative = false ∧ ofDigits l.whole < UInt64.size ∧ k = ofDigits l.whole) ∨
          (l.negative = true ∧ 0 < ofDigits l.whole ∧ ofDigits l.whole ≤ Nat.pow 2 63 ∧
            k = -ofDigits l.whole)) := by
  have hreal : (l.binary64?.map Number.real) ≠ some (.whole k) := by
    cases l.binary64? <;> nofun
  simp only [ofLiteral?, Option.isNone_iff_eq_none]
  by_cases hplain : l.fraction = none ∧ l.exponent = none
  · obtain ⟨hfraction, hexponent⟩ := hplain
    cases hnegative : l.negative with
    | false =>
      by_cases hfits : ofDigits l.whole < UInt64.size
      · simp [hfraction, hexponent, hfits, eq_comm]
      · simp [hfraction, hexponent, hfits, hreal]
    | true =>
      by_cases hfits : 0 < ofDigits l.whole ∧ ofDigits l.whole ≤ Nat.pow 2 63
      · simp [hfraction, hexponent, hfits, eq_comm]
      · rw [if_neg (by simp), if_neg (by simp [hfits, hfraction, hexponent])]
        simp only [hreal, false_iff]
        rintro ⟨-, -, ⟨⟨⟩, -⟩ | ⟨-, hpos, hle, -⟩⟩
        exact hfits ⟨hpos, hle⟩
  · rw [if_neg (fun h => hplain ⟨h.1, h.2.1⟩), if_neg (fun h => hplain ⟨h.1, h.2.1⟩)]
    simp only [hreal, false_iff]
    exact fun h => hplain ⟨h.1, h.2.1⟩

/-- The bytes of a whole number are digits, after a minus if it is negative. -/
theorem exists_digits_of_whole {bs : List UInt8} {k : Int}
    (h : ofLiteral? (Literal.ofBytes bs) = some (.whole k)) :
    ∃ minus digits, bs = minus ++ digits ∧ (minus = [] ∨ minus = [45]) ∧
      ∀ b ∈ digits, isDigit b = true := by
  obtain ⟨hfraction, hexponent, -⟩ := ofLiteral?_eq_whole_iff.1 h
  have hall : ∀ b ∈ (if bs.head? == some 45 then bs.tail else bs), isDigit b = true := by
    rw [← List.dropWhile_eq_nil_iff]
    rw [Literal.ofBytes] at hfraction hexponent
    -- What comes after the digits makes a fraction or an exponent.
    cases hrest : (if bs.head? == some 45 then bs.tail else bs).dropWhile isDigit with
    | nil => rfl
    | cons c rest =>
      simp only [hrest] at hfraction hexponent
      split at hfraction
      · cases hfraction
      · rename_i hpoint
        split at hexponent
        · exact absurd ‹c :: rest = _› (hpoint _)
        · exact absurd (Literal.readExponent_eq_none hexponent) nofun
  split at hall
  · rename_i hminus
    cases bs with
    | nil => cases hminus
    | cons c bs =>
      obtain rfl : c = 45 := by simpa using hminus
      exact ⟨[45], bs, rfl, .inr rfl, hall⟩
  · exact ⟨[], bs, rfl, .inl rfl, hall⟩

/-- A whole number of which some digits are left out at the end lies between zero and the number. -/
theorem whole_of_append {minus digits more : List UInt8} {d : UInt8} {k : Int}
    (hminus : minus = [] ∨ minus = [45]) (hdigits : ∀ b ∈ d :: (digits ++ more), isDigit b = true)
    (hd : d ≠ 48)
    (hk : ofLiteral? (Literal.ofBytes (minus ++ d :: (digits ++ more))) = some (.whole k)) :
    ∃ j, ofLiteral? (Literal.ofBytes (minus ++ d :: digits)) = some (.whole j) ∧
      (0 ≤ j ∧ j ≤ k ∨ k ≤ j ∧ j ≤ 0) := by
  have hdigits' : ∀ b ∈ d :: digits, isDigit b = true := fun b hb =>
    hdigits b (List.mem_append_left more hb)
  have hle : ofDigits (digitValues (d :: digits)) ≤
      ofDigits (digitValues (d :: (digits ++ more))) := by
    rw [← List.cons_append, digitValues, digitValues, List.map_append]
    exact ofDigits_le_append _ _
  have hpos : 0 < ofDigits (digitValues (d :: digits)) := by
    obtain ⟨hlow, -⟩ := isDigit_iff.1 (hdigits d List.mem_cons_self)
    have hlow' : 48 ≤ d.toNat := UInt8.le_iff_toNat_le.1 hlow
    have hne : d.toNat ≠ 48 := fun h => hd (UInt8.toNat_inj.1 h)
    exact ofDigits_cons_pos (Nat.sub_pos_of_lt (by omega)) _
  rcases hminus with rfl | rfl
  · rw [List.nil_append, Literal.ofBytes_digits hdigits] at hk
    obtain ⟨-, -, ⟨-, hfits, rfl⟩ | ⟨⟨⟩, -⟩⟩ := ofLiteral?_eq_whole_iff.1 hk
    refine ⟨_, ?_, .inl ⟨Int.natCast_nonneg _, Int.ofNat_le.2 hle⟩⟩
    rw [List.nil_append, Literal.ofBytes_digits hdigits', ofLiteral?_eq_whole_iff]
    exact ⟨rfl, rfl, .inl ⟨rfl, Nat.lt_of_le_of_lt hle hfits, rfl⟩⟩
  · rw [List.singleton_append, Literal.ofBytes_minus hdigits] at hk
    obtain ⟨-, -, ⟨⟨⟩, -⟩ | ⟨-, -, hfits, rfl⟩⟩ := ofLiteral?_eq_whole_iff.1 hk
    refine ⟨_, ?_, .inr ⟨Int.neg_le_neg (Int.ofNat_le.2 hle),
      Int.neg_nonpos_of_nonneg (Int.natCast_nonneg _)⟩⟩
    rw [List.singleton_append, Literal.ofBytes_minus hdigits', ofLiteral?_eq_whole_iff]
    exact ⟨rfl, rfl, .inr ⟨rfl, hpos, Nat.le_trans hle hfits, rfl⟩⟩

end Number

/-! ## Parts of a number -/

namespace Json.Reader.NumberPart

open Number

variable {part part' : NumberPart} {bs more : List UInt8}

/-- What the bytes of a number can be after each of its parts. -/
inductive Spells : NumberPart → List UInt8 → Prop
  | sign : Spells .sign [45]
  | zero {minus : List UInt8} (hminus : minus = [] ∨ minus = [45]) : Spells .zero (minus ++ [48])
  | whole {minus : List UInt8} {d : UInt8} {digits : List UInt8}
      (hminus : minus = [] ∨ minus = [45]) (hdigits : ∀ b ∈ d :: digits, isDigit b = true)
      (hd : d ≠ 48) : Spells .whole (minus ++ d :: digits)
  | other {part : NumberPart} {bs : List UInt8}
      (hpart : part ≠ .sign ∧ part ≠ .zero ∧ part ≠ .whole)
      (hmark : ∃ b ∈ bs, b ≠ 45 ∧ isDigit b = false) : Spells part bs

/-- A point, or the letter of an exponent, makes a number that is not whole. -/
theorem spells_of_mark {b : UInt8} (bs : List UInt8)
    (h : (if b = 46 then some point else if b = 101 ∨ b = 69 then some exponent else none) =
      some part') : Spells part' (bs ++ [b]) := by
  have hlast : b ∈ bs ++ [b] := List.mem_append_right bs List.mem_cons_self
  split at h
  · rename_i hb
    cases h
    exact .other (by decide) ⟨b, hlast, hb ▸ by decide⟩
  · split at h <;> cases h
    rename_i hb
    refine .other (by decide) ⟨b, hlast, ?_⟩
    rcases hb with rfl | rfl <;> decide

/-- One more byte of a number. -/
theorem Spells.next (h : Spells part bs) {b : UInt8} (hnext : part.next? b = some part') :
    Spells part' (bs ++ [b]) := by
  cases h with
  | sign =>
    simp only [next?] at hnext
    split at hnext
    · rename_i hb
      cases hnext
      rw [hb]
      exact .zero (.inr rfl)
    · rename_i hb
      split at hnext <;> cases hnext
      exact .whole (.inr rfl) (by simpa) hb
  | zero hminus => exact spells_of_mark _ hnext
  | @whole minus d digits hminus hdigits hd =>
    simp only [next?] at hnext
    split at hnext
    · cases hnext
      rename_i hb
      rw [List.append_assoc, List.cons_append]
      refine .whole hminus ?_ hd
      intro c hc
      rw [← List.cons_append, List.mem_append, List.mem_singleton] at hc
      rcases hc with hc | rfl
      · exact hdigits c hc
      · exact hb
    · exact spells_of_mark _ hnext
  | other hpart hmark =>
    obtain ⟨c, hc, hmark⟩ := hmark
    refine .other ?_ ⟨c, List.mem_append_left _ hc, hmark⟩
    obtain ⟨hsign, hzero, hwhole⟩ := hpart
    cases part with
    | sign => exact absurd rfl hsign
    | zero => exact absurd rfl hzero
    | whole => exact absurd rfl hwhole
    | point | fraction | exponent | exponentSign | exponentDigits =>
      simp only [next?] at hnext
      repeat' split at hnext
      all_goals cases hnext
      all_goals decide

/-- A minus is told from the digits after it. -/
theorem eq_of_minus_append {minus minus' digits digits' : List UInt8} {d : UInt8}
    (hminus : minus = [] ∨ minus = [45]) (hminus' : minus' = [] ∨ minus' = [45])
    (hd : isDigit d = true) (hdigits' : ∀ b ∈ digits', isDigit b = true)
    (h : minus ++ d :: digits = minus' ++ digits') : d :: digits = digits' := by
  rcases hminus with rfl | rfl
  · rcases hminus' with rfl | rfl
    · exact h
    · cases h
      cases hd
  · rcases hminus' with rfl | rfl
    · obtain rfl : 45 :: d :: digits = digits' := h
      exact absurd (hdigits' 45 List.mem_cons_self) (by decide)
    · exact (List.cons.inj h).2

/-- A number that may end, and goes on to a whole number, is whole and not beyond it. -/
theorem Spells.whole_of_append (h : Spells part bs) (hend : part.mayEnd = true)
    (h' : Spells part' (bs ++ more)) {k : Int}
    (hk : ofLiteral? (Literal.ofBytes (bs ++ more)) = some (.whole k)) :
    ∃ j, ofLiteral? (Literal.ofBytes bs) = some (.whole j) ∧ (0 ≤ j ∧ j ≤ k ∨ k ≤ j ∧ j ≤ 0) := by
  obtain ⟨minus', digits', hbytes, hminus', hdigits'⟩ := exists_digits_of_whole hk
  have hunmarked (hmark : ∃ b ∈ bs ++ more, b ≠ 45 ∧ isDigit b = false) : False := by
    obtain ⟨b, hb, hne, hdigit⟩ := hmark
    rw [hbytes, List.mem_append] at hb
    rcases hb with hb | hb
    · rcases hminus' with rfl | rfl
      · cases hb
      · exact hne (List.mem_singleton.1 hb)
    · rw [hdigits' b hb] at hdigit
      cases hdigit
  cases h with
  | sign => cases hend
  | other _ hmark =>
    obtain ⟨b, hb, hmark⟩ := hmark
    exact (hunmarked ⟨b, List.mem_append_left more hb, hmark⟩).elim
  | @zero minus hminus =>
    -- Nothing but a fraction or an exponent comes after a zero.
    have hmore : more = [] := by
      rw [List.append_assoc, List.singleton_append] at h' hbytes
      have hzero := eq_of_minus_append hminus hminus' (by decide) hdigits' hbytes
      generalize hx : minus ++ 48 :: more = x at h'
      cases h' with
      | sign => rcases hminus with rfl | rfl <;> cases hx
      | zero hminus'' =>
        have hdigit : ∀ b ∈ [48], isDigit b = true := List.forall_mem_singleton.2 (by decide)
        exact (List.cons.inj (eq_of_minus_append hminus hminus'' (by decide) hdigit hx)).2
      | whole hminus'' hdigits'' hd =>
        have heq := eq_of_minus_append hminus hminus'' (by decide) hdigits'' hx
        exact absurd (List.cons.inj heq).1.symm hd
      | other _ hmark =>
        rw [← hx] at hmark
        exact (hunmarked (by simpa using hmark)).elim
    subst hmore
    rw [List.append_nil] at hk
    exact ⟨k, hk, by omega⟩
  | @whole minus d digits hminus hdigits hd =>
    rw [List.append_assoc, List.cons_append] at hk hbytes
    have hsame := eq_of_minus_append hminus hminus' (hdigits d List.mem_cons_self) hdigits' hbytes
    exact Number.whole_of_append hminus (hsame ▸ hdigits') hd hk

end Json.Reader.NumberPart

end StorageControl
