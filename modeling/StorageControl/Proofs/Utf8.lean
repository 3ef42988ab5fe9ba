/-
# Texts are read back from their bytes

Every character begins with a byte that tells how many more there are, and strict reading of these
gives the character. Bytes below 128 stand only for the characters with their codes, so that what is
looked for among them is not found inside of another character.
-/
import Mathlib.Data.UInt
import StorageControl.Text.Utf8

namespace StorageControl.Text

variable {c : Char} {b : UInt8}

/-! ## Characters -/

/-- A code is one of a character if it is none of a surrogate and not too large. -/
theorem toNat_valid (c : Char) : c.toNat < 0xD800 ∨ 0xDFFF < c.toNat ∧ c.toNat < 0x110000 :=
  c.valid

theorem utf8EncodeChar_of_lt (h : c.toNat < 128) :
    String.utf8EncodeChar c = [UInt8.ofNat c.toNat] :=
  if_pos (Nat.le_of_lt_succ h)

/-- All bytes of a character with a larger code are larger. -/
theorem le_of_mem_utf8EncodeChar (h : 128 ≤ c.toNat) (hb : b ∈ String.utf8EncodeChar c) :
    128 ≤ b := by
  have hcode : ¬ c.val.toNat ≤ 127 := Nat.not_le.2 h
  rw [UInt8.le_iff_toNat_le]
  simp only [String.utf8EncodeChar, hcode, if_false] at hb
  split at hb
  · simp only [List.mem_cons, List.not_mem_nil, or_false] at hb
    rcases hb with rfl | rfl <;> simp only [UInt8.toNat_ofNat', UInt8.reduceToNat] <;> omega
  split at hb
  · simp only [List.mem_cons, List.not_mem_nil, or_false] at hb
    rcases hb with rfl | rfl | rfl <;> simp only [UInt8.toNat_ofNat', UInt8.reduceToNat] <;> omega
  · simp only [List.mem_cons, List.not_mem_nil, or_false] at hb
    rcases hb with rfl | rfl | rfl | rfl <;>
      simp only [UInt8.toNat_ofNat', UInt8.reduceToNat] <;> omega

/-- A small byte of a character is the only one, and is its code. -/
theorem utf8EncodeChar_of_mem_of_lt (hb : b ∈ String.utf8EncodeChar c) (hlt : b < 128) :
    c.toNat = b.toNat ∧ String.utf8EncodeChar c = [b] := by
  rcases Nat.lt_or_ge c.toNat 128 with hc | hc
  · rw [utf8EncodeChar_of_lt hc] at hb ⊢
    obtain rfl := List.mem_singleton.1 hb
    exact ⟨by rw [UInt8.toNat_ofNat']; omega, rfl⟩
  · exact absurd (le_of_mem_utf8EncodeChar hc hb) (UInt8.not_le.2 hlt)

/-! ## Reading -/

/-- The first byte of a character. -/
theorem decodeFrom_lead {q : Pending} (hlead : Pending.lead b.toNat = some q) (done : List Char)
    (rest : List UInt8) :
    decodeFrom none done (b :: rest) =
      if q.owed = 0 then decodeFrom none (Char.ofNat q.code :: done) rest
      else decodeFrom (some q) done rest := by
  simp only [decodeFrom, hlead]

/-- A further byte of a character. -/
theorem decodeFrom_next {q : Pending} (hleast : q.least ≤ b.toNat) (hgreatest : b.toNat ≤ q.greatest)
    (done : List Char) (rest : List UInt8) :
    decodeFrom (some q) done (b :: rest) =
      if q.owed = 1 ∨ q.owed = 0 then
        decodeFrom none (Char.ofNat (q.code * 64 + (b.toNat - 128)) :: done) rest
      else decodeFrom (some ⟨q.owed - 1, 0x80, 0xBF, q.code * 64 + (b.toNat - 128)⟩) done rest := by
  have hnext : q.next b.toNat =
      some ⟨q.owed - 1, 0x80, 0xBF, q.code * 64 + (b.toNat - 128)⟩ := if_pos ⟨hleast, hgreatest⟩
  have howed : q.owed - 1 = 0 ↔ q.owed = 1 ∨ q.owed = 0 := by omega
  simp only [decodeFrom, hnext, howed]

/-- The byte of a number below 256. -/
theorem toNat_ofNat_of_lt {n : Nat} (h : n < 256) : (UInt8.ofNat n).toNat = n := by
  rw [UInt8.toNat_ofNat', Nat.mod_eq_of_lt h]

/-- After one byte one more is owed. -/
theorem lead_two {n : Nat} (hlow : 128 ≤ n) (hhigh : n ≤ 2047) :
    Pending.lead (n / 64 % 32 + 192) = some ⟨1, 0x80, 0xBF, n / 64⟩ := by
  have hcode : n / 64 % 32 + 192 - 0xC0 = n / 64 := by omega
  rw [Pending.lead, if_neg (by omega), if_pos (by omega), hcode]

/-- After one byte two more are owed, and the first of them keeps out short codes and surrogates. -/
theorem exists_lead_three {n : Nat} (hlow : 2048 ≤ n) (hhigh : n ≤ 65535)
    (hvalid : n < 0xD800 ∨ 0xDFFF < n) :
    ∃ least greatest, Pending.lead (n / 4096 % 16 + 224) = some ⟨2, least, greatest, n / 4096⟩ ∧
      least ≤ n / 64 % 64 + 128 ∧ n / 64 % 64 + 128 ≤ greatest := by
  simp only [Pending.lead]
  rw [if_neg (by omega), if_neg (by omega)]
  by_cases hzero : n / 4096 = 0
  · exact ⟨0xA0, 0xBF, by rw [if_pos (by omega), hzero], by omega, by omega⟩
  rw [if_neg (by omega)]
  by_cases hsurrogate : n / 4096 = 13
  · exact ⟨0x80, 0x9F, by rw [if_pos (by omega), hsurrogate], by omega, by omega⟩
  have hcode : n / 4096 % 16 + 224 - 0xE0 = n / 4096 := by omega
  exact ⟨0x80, 0xBF, by rw [if_neg (by omega), if_pos (by omega), hcode], by omega, by omega⟩

/-- After one byte three more are owed, and the first of them keeps out short and large codes. -/
theorem exists_lead_four {n : Nat} (hlow : 65536 ≤ n) (hhigh : n < 0x110000) :
    ∃ least greatest, Pending.lead (n / 262144 % 8 + 240) = some ⟨3, least, greatest, n / 262144⟩ ∧
      least ≤ n / 4096 % 64 + 128 ∧ n / 4096 % 64 + 128 ≤ greatest := by
  simp only [Pending.lead]
  rw [if_neg (by omega), if_neg (by omega), if_neg (by omega), if_neg (by omega),
    if_neg (by omega)]
  by_cases hzero : n / 262144 = 0
  · exact ⟨0x90, 0xBF, by rw [if_pos (by omega), hzero], by omega, by omega⟩
  rw [if_neg (by omega)]
  by_cases hfour : n / 262144 = 4
  · exact ⟨0x80, 0x8F, by rw [if_pos (by omega), hfour], by omega, by omega⟩
  have hcode : n / 262144 % 8 + 240 - 0xF0 = n / 262144 := by omega
  exact ⟨0x80, 0xBF, by rw [if_neg (by omega), if_pos (by omega), hcode], by omega, by omega⟩

/-- The bytes of a character are read as the character. -/
theorem decodeFrom_utf8EncodeChar (c : Char) (done : List Char) (rest : List UInt8) :
    decodeFrom none done (String.utf8EncodeChar c ++ rest) = decodeFrom none (c :: done) rest := by
  have hvalid := toNat_valid c
  have hchar (n : Nat) (h : n = c.toNat) : Char.ofNat n = c := by rw [h, Char.ofNat_toNat]
  have hcode : c.val.toNat = c.toNat := rfl
  simp only [String.utf8EncodeChar, hcode]
  split
  · have hlead : Pending.lead (UInt8.ofNat c.toNat).toNat = some ⟨0, 0, 0, c.toNat⟩ := by
      rw [toNat_ofNat_of_lt (by omega), Pending.lead, if_pos (by omega)]
    rw [List.singleton_append, decodeFrom_lead hlead, if_pos rfl, hchar _ rfl]
  split
  · have hlead := lead_two (n := c.toNat) (by omega) (by omega)
    rw [← toNat_ofNat_of_lt (by omega : c.toNat / 64 % 32 + 192 < 256)] at hlead
    have hlast := toNat_ofNat_of_lt (by omega : c.toNat % 64 + 128 < 256)
    rw [List.cons_append, decodeFrom_lead hlead, if_neg (by simp), List.singleton_append,
      decodeFrom_next (by simp only [hlast]; omega) (by simp only [hlast]; omega), if_pos (.inl rfl),
      hlast, hchar _ (by simp only; omega)]
  split
  · obtain ⟨least, greatest, hlead, hleast, hgreatest⟩ :=
      exists_lead_three (n := c.toNat) (by omega) (by omega) (by omega)
    rw [← toNat_ofNat_of_lt (by omega : c.toNat / 4096 % 16 + 224 < 256)] at hlead
    have hmiddle := toNat_ofNat_of_lt (by omega : c.toNat / 64 % 64 + 128 < 256)
    have hlast := toNat_ofNat_of_lt (by omega : c.toNat % 64 + 128 < 256)
    rw [List.cons_append, decodeFrom_lead hlead, if_neg (by simp), List.cons_append,
      decodeFrom_next (by simpa only [hmiddle]) (by simpa only [hmiddle]), if_neg (by simp),
      List.singleton_append,
      decodeFrom_next (by simp only [hlast]; omega) (by simp only [hlast]; omega), if_pos (.inl rfl),
      hmiddle, hlast, hchar _ (by simp only; omega)]
  · obtain ⟨least, greatest, hlead, hleast, hgreatest⟩ :=
      exists_lead_four (n := c.toNat) (by omega) (by omega)
    rw [← toNat_ofNat_of_lt (by omega : c.toNat / 262144 % 8 + 240 < 256)] at hlead
    have hsecond := toNat_ofNat_of_lt (by omega : c.toNat / 4096 % 64 + 128 < 256)
    have hthird := toNat_ofNat_of_lt (by omega : c.toNat / 64 % 64 + 128 < 256)
    have hlast := toNat_ofNat_of_lt (by omega : c.toNat % 64 + 128 < 256)
    rw [List.cons_append, decodeFrom_lead hlead, if_neg (by simp), List.cons_append,
      decodeFrom_next (by simpa only [hsecond]) (by simpa only [hsecond]), if_neg (by simp),
      List.cons_append,
      decodeFrom_next (by simp only [hthird]; omega) (by simp only [hthird]; omega),
      if_neg (by simp), List.singleton_append,
      decodeFrom_next (by simp only [hlast]; omega) (by simp only [hlast]; omega), if_pos (.inl rfl),
      hsecond, hthird, hlast, hchar _ (by simp only; omega)]

/-- The bytes of a text are read as the text. -/
theorem ofBytes?_bytes (s : String) : ofBytes? (bytes s) = some s := by
  have hdecode (l done : List Char) :
      decodeFrom none done (l.flatMap String.utf8EncodeChar) = some (done.reverse ++ l) := by
    induction l generalizing done with
    | nil => simp [decodeFrom]
    | cons c l ih =>
      rw [List.flatMap_cons, decodeFrom_utf8EncodeChar, ih, List.reverse_cons, List.append_assoc]
      rfl
  rw [ofBytes?, bytes, hdecode, Option.map_some, List.reverse_nil, List.nil_append,
    String.ofList_toList]

end StorageControl.Text
