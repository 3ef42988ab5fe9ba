/-
# Written texts and numbers

What is written of a text between its quotes holds no quote and no line break, and a reader makes
the characters of the text of it again. What is written of a number is a number for the reader. So
each is read up to its end, whatever comes after it.
-/
import StorageControl.Proofs.Digits
import StorageControl.Proofs.Nesting

namespace StorageControl

namespace Json.Reader

open Decimal
open Text (spell)

/-! ## Numbers -/

namespace NumberPart

variable {part part' : NumberPart} {bs cs : List UInt8} {minus digits : List Char}

/-- Digits in a place of a number where any digit may stand. -/
theorem foldlM_digits (h : part = .whole ∨ part = .fraction ∨ part = .exponentDigits)
    (hbs : ∀ b ∈ bs, isDigit b = true) : bs.foldlM next? part = some part := by
  induction bs with
  | nil => rfl
  | cons b bs ih =>
    obtain ⟨hb, hbs⟩ := List.forall_mem_cons.1 hbs
    have hnext : part.next? b = some part := by
      rcases h with rfl | rfl | rfl <;> simp [next?, hb]
    rw [List.foldlM_cons, hnext]
    exact ih hbs

/-- Digits after a point, or in an exponent. -/
theorem foldlM_first_digits (h : part = .point ∧ part' = .fraction ∨
    (part = .exponent ∨ part = .exponentSign) ∧ part' = .exponentDigits) (hne : digits ≠ [])
    (hdigits : ∀ d ∈ digits, d.isDigit = true) :
    (spell digits).foldlM next? part = some part' := by
  cases digits with
  | nil => exact absurd rfl hne
  | cons c cs =>
    obtain ⟨hc, hcs⟩ := List.forall_mem_cons.1 hdigits
    obtain ⟨b, hb, hbyte, -⟩ := exists_byte_of_isDigit hc
    have hsign : b ≠ 43 ∧ b ≠ 45 := by
      constructor <;> rintro rfl <;> exact absurd hbyte (by decide)
    have hnext : part.next? b = some part' := by
      rcases h with ⟨rfl, rfl⟩ | ⟨rfl | rfl, rfl⟩ <;> simp [next?, hbyte, hsign]
    rw [Text.spell_cons, hb, List.singleton_append, List.foldlM_cons, hnext]
    exact foldlM_digits (by rcases h with ⟨-, rfl⟩ | ⟨-, rfl⟩ <;> simp) (isDigit_of_mem_spell hcs)

/-- The bytes are those of a number up to a part of it. -/
def Reached (part : NumberPart) (bs : List UInt8) : Prop :=
  ∃ b more first, bs = b :: more ∧ lexeme? b = some (.number first [b]) ∧
    more.foldlM next? first = some part

theorem Reached.append {text more : List Char} (h : part.Reached (spell text))
    (hmore : (spell more).foldlM next? part = some part') :
    part'.Reached (spell (text ++ more)) := by
  obtain ⟨b, bs, first, hbytes, hfirst, hbs⟩ := h
  refine ⟨b, bs ++ spell more, first, by rw [Text.spell_append, hbytes]; rfl, hfirst, ?_⟩
  rw [List.foldlM_append, hbs]
  exact hmore

/-- A digit that is not zero begins a number. -/
theorem lexeme?_of_isDigit {b : UInt8} (h : isDigit b = true) (hzero : b ≠ 48) :
    lexeme? b = some (.number .whole [b]) := by
  obtain ⟨hlow, hhigh⟩ := isDigit_iff.1 h
  have hother (c : UInt8) (hc : isDigit c = false) : b ≠ c := by
    rintro rfl
    rw [hc] at h
    cases h
  have hpositive : 49 ≤ b := by
    rw [UInt8.le_iff_toNat_le] at hlow ⊢
    exact Nat.lt_of_le_of_ne hlow fun heq => hzero (UInt8.toNat_inj.1 heq.symm)
  rw [lexeme?, if_neg (hother 34 rfl), if_neg (hother 110 rfl), if_neg (hother 116 rfl),
    if_neg (hother 102 rfl), if_neg (hother 45 rfl), if_neg hzero, if_pos ⟨hpositive, hhigh⟩]

/-- A digit that is not zero begins a number, with or without a minus. -/
theorem reached_whole (hminus : minus = [] ∨ minus = ['-']) {c : Char} {cs : List Char}
    (h : ∀ d ∈ c :: cs, d.isDigit = true) (hc : c ≠ '0') :
    whole.Reached (spell (minus ++ c :: cs)) := by
  obtain ⟨hdigit, hcs⟩ := List.forall_mem_cons.1 h
  obtain ⟨b, hb, hbyte, hcode⟩ := exists_byte_of_isDigit hdigit
  have hzero : b ≠ 48 := by
    rintro rfl
    exact hc (Char.toNat_inj.1 hcode.symm)
  have hrest : (spell cs).foldlM next? whole = some whole :=
    foldlM_digits (.inl rfl) (isDigit_of_mem_spell hcs)
  rw [Text.spell_append, Text.spell_cons, hb]
  rcases hminus with rfl | rfl
  · exact ⟨b, spell cs, whole, rfl, lexeme?_of_isDigit hbyte hzero, hrest⟩
  · refine ⟨45, b :: spell cs, sign, rfl, rfl, ?_⟩
    have hnext : sign.next? b = some whole := by simp [next?, hzero, hbyte]
    rw [List.foldlM_cons, hnext]
    exact hrest

theorem reached_zero (hminus : minus = [] ∨ minus = ['-']) :
    zero.Reached (spell (minus ++ ['0'])) := by
  rcases hminus with rfl | rfl
  · exact ⟨48, [], zero, rfl, rfl, rfl⟩
  · exact ⟨45, [48], sign, rfl, rfl, rfl⟩

/-- A written whole number is a number. -/
theorem exists_reached_writeInt (k : Int) :
    ∃ part : NumberPart, part.mayEnd = true ∧ part.Reached (spell (writeInt k)) := by
  have hdigits {n : Nat} (hn : n ≠ 0) {minus : List Char} (hminus : minus = [] ∨ minus = ['-']) :
      whole.Reached (spell (minus ++ Decimal.digits n)) := by
    obtain ⟨c, cs, hcs, hc⟩ := exists_digits_eq hn
    rw [hcs]
    exact reached_whole hminus (hcs ▸ fun _ => isDigit_of_mem_digits) hc
  cases k with
  | ofNat n =>
    by_cases hn : n = 0
    · rw [hn]
      exact ⟨zero, rfl, reached_zero (.inl rfl)⟩
    · exact ⟨whole, rfl, hdigits hn (.inl rfl)⟩
  | negSucc n => exact ⟨whole, rfl, hdigits n.succ_ne_zero (.inr rfl)⟩

/-- The exponent of a number. -/
theorem foldlM_exponent (k : Int) :
    (spell ('e' :: writeInt k)).foldlM next? .fraction = some .exponentDigits ∧
      (spell ('e' :: writeInt k)).foldlM next? .whole = some .exponentDigits := by
  have hexponent : (spell (writeInt k)).foldlM next? .exponent = some .exponentDigits := by
    cases k with
    | ofNat n =>
      exact foldlM_first_digits (.inr ⟨.inl rfl, rfl⟩) Nat.toDigits_ne_nil
        fun _ => isDigit_of_mem_digits
    | negSucc n =>
      rw [writeInt, Text.spell_cons_of_lt (by decide)]
      exact foldlM_first_digits (.inr ⟨.inr rfl, rfl⟩) Nat.toDigits_ne_nil
        fun _ => isDigit_of_mem_digits
  rw [Text.spell_cons_of_lt (by decide)]
  exact ⟨hexponent, hexponent⟩

/-- A laid out decimal that is not zero is a number, with or without a minus. -/
theorem exists_reached_layout (l : Layout) {n : Nat} (hn : n ≠ 0) (e : Int)
    (hminus : minus = [] ∨ minus = ['-']) :
    ∃ part : NumberPart, part.mayEnd = true ∧ part.Reached (spell (minus ++ l.write n e)) := by
  obtain ⟨c, cs, hdigits, hc⟩ := exists_digits_eq hn
  have hall : ∀ d ∈ c :: cs, d.isDigit = true := hdigits ▸ fun _ => isDigit_of_mem_digits
  obtain ⟨hdigit, hrest⟩ := List.forall_mem_cons.1 hall
  have hzeros (k : Nat) : ∀ d ∈ List.replicate k '0', d.isDigit = true := fun d hd => by
    rw [List.eq_of_mem_replicate hd]
    rfl
  have hwhole {ds : List Char} (hds : ∀ d ∈ ds, d.isDigit = true) :
      whole.Reached (spell (minus ++ c :: ds)) :=
    reached_whole hminus (List.forall_mem_cons.2 ⟨hdigit, hds⟩) hc
  -- After a point there is at least one digit.
  have hfraction {ds : List Char} (hne : ds ≠ []) (hds : ∀ d ∈ ds, d.isDigit = true) :
      (spell ('.' :: ds)).foldlM next? .whole = some .fraction ∧
        (spell ('.' :: ds)).foldlM next? .zero = some .fraction := by
    rw [Text.spell_cons_of_lt (by decide)]
    exact ⟨foldlM_first_digits (.inl ⟨rfl, rfl⟩) hne hds,
      foldlM_first_digits (.inl ⟨rfl, rfl⟩) hne hds⟩
  simp only [Layout.write, hdigits]
  split
  · have hzero : ∀ d ∈ ['0'], d.isDigit = true := List.forall_mem_singleton.2 rfl
    have htext := (hwhole (List.forall_mem_append.2 ⟨hrest, hzeros e.toNat⟩)).append
      (hfraction (List.cons_ne_nil _ _) hzero).1
    refine ⟨.fraction, rfl, ?_⟩
    simpa only [List.cons_append, List.append_assoc] using htext
  split
  · rename_i hneg hpoint
    obtain ⟨k, hk⟩ : ∃ k, (((c :: cs).length : Int) + e).toNat = k + 1 :=
      Nat.exists_eq_succ_of_ne_zero (by omega)
    have hdrop : cs.drop k ≠ [] := by
      rw [Ne, List.drop_eq_nil_iff]
      simp only [List.length_cons] at hk hneg hpoint
      omega
    have htake : ∀ d ∈ cs.take k, d.isDigit = true := fun d hd =>
      hrest d (List.mem_of_mem_take hd)
    have htext := (hwhole htake).append
      (hfraction hdrop fun d hd => hrest d (List.mem_of_mem_drop hd)).1
    refine ⟨.fraction, rfl, ?_⟩
    rw [hk, List.take_succ_cons, List.drop_succ_cons]
    simpa only [List.append_assoc, List.cons_append] using htext
  split
  · have htext := (reached_zero hminus).append (hfraction
      (List.append_ne_nil_of_right_ne_nil _ (List.cons_ne_nil c cs))
      (List.forall_mem_append.2 ⟨hzeros (-((c :: cs).length + e)).toNat, hall⟩)).2
    refine ⟨.fraction, rfl, ?_⟩
    simpa only [List.append_assoc, List.cons_append, List.nil_append] using htext
  · refine ⟨.exponentDigits, rfl, ?_⟩
    cases cs with
    | nil =>
      have htext := (hwhole (List.forall_mem_nil _)).append 
        (foldlM_exponent ([c].length + e - 1)).2
      simpa only [List.append_assoc, List.cons_append, List.nil_append] using htext
    | cons d ds =>
      have htext := ((hwhole (List.forall_mem_nil _)).append
        (hfraction (List.cons_ne_nil d ds) hrest).1).append 
        (foldlM_exponent ((c :: d :: ds).length + e - 1)).1
      simpa only [List.append_assoc, List.cons_append, List.nil_append] using htext

end NumberPart

end Json.Reader

/-! ## Written numbers -/

namespace Number

open Decimal Json.Reader
open Text (spell)

/-- The whole number has a place in 64 bits, with a sign if it is negative. -/
def Held (k : Int) : Prop :=
  -9223372036854775808 ≤ k ∧ k < 18446744073709551616

/-- What is written of a number is a number. -/
theorem exists_reached_write (n : Number) :
    ∃ part : NumberPart, part.mayEnd = true ∧ part.Reached (spell n.write) := by
  cases n with
  | whole k => exact NumberPart.exists_reached_writeInt k
  | real bits =>
    have hlt : bits.toNat % Nat.pow 2 63 < Nat.pow 2 63 := Nat.mod_lt _ (Nat.pow_pos (by decide))
    have hmagnitude {minus : List Char} (hminus : minus = [] ∨ minus = ['-']) :
        ∃ part : NumberPart, part.mayEnd = true ∧ part.Reached (spell (minus ++
          if bits.toNat % Nat.pow 2 63 = 0 then ['0', '.', '0']
          else layout.write (shortest (bits.toNat % Nat.pow 2 63)).1
            (shortest (bits.toNat % Nat.pow 2 63)).2)) := by
      split
      · refine ⟨.fraction, rfl, ?_⟩
        have htext := (NumberPart.reached_zero hminus).append
          (show (spell ['.', '0']).foldlM NumberPart.next? .zero = some .fraction from rfl)
        rwa [List.append_assoc] at htext
      · exact NumberPart.exists_reached_layout layout (ne_zero_of_shortest hlt ‹_›) _ hminus
    rw [write]
    split
    · exact hmagnitude (.inl rfl)
    · exact hmagnitude (.inr rfl)

/-- A whole number of 64 bits is read from what is written of it. -/
theorem ofLiteral?_writeInt {k : Int} (h : Held k) :
    ofLiteral? (Literal.ofBytes (spell (writeInt k))) = some (.whole k) := by
  obtain ⟨hlow, hhigh⟩ := h
  have hdigits (n : Nat) : ∀ b ∈ spell (digits n), isDigit b = true :=
    isDigit_of_mem_spell fun _ => isDigit_of_mem_digits
  rw [ofLiteral?_eq_whole_iff]
  cases k with
  | ofNat n =>
    have hn : (n : Int) < 18446744073709551616 := hhigh
    rw [writeInt, Literal.ofBytes_digits (hdigits n), ofDigits_digits]
    exact ⟨rfl, rfl, .inl ⟨rfl, by rw [UInt64.size]; omega, rfl⟩⟩
  | negSucc n =>
    rw [writeInt, Text.spell_cons_of_lt (by decide)]
    rw [show UInt8.ofNat '-'.toNat = 45 from rfl, Literal.ofBytes_minus (hdigits _),
      ofDigits_digits]
    refine ⟨rfl, rfl, .inr ⟨rfl, Nat.succ_pos n, ?_, rfl⟩⟩
    have hbound : Nat.pow 2 63 = 9223372036854775808 := rfl
    rw [hbound]
    omega

end Number

namespace Json.Reader

open Text (spell)

/-! ## Reading a number -/

/-- What stands after a value does not go on with a number. -/
def Ends (rest : List UInt8) : Prop :=
  ∀ b ∈ rest.head?, Decimal.isDigit b = false ∧ b ≠ 46 ∧ b ≠ 101 ∧ b ≠ 69

theorem ends_nil : Ends [] := nofun

theorem ends_cons {b : UInt8} {rest : List UInt8}
    (h : Decimal.isDigit b = false ∧ b ≠ 46 ∧ b ≠ 101 ∧ b ≠ 69) : Ends (b :: rest) := by
  rintro c ⟨⟩
  exact h

/-- A number that may end does so before a byte that does not go on with one. -/
theorem NumberPart.next?_of_ends {part : NumberPart} (hend : part.mayEnd = true) {b : UInt8}
    (h : Decimal.isDigit b = false ∧ b ≠ 46 ∧ b ≠ 101 ∧ b ≠ 69) : part.next? b = none := by
  cases part with
  | sign | point | exponent | exponentSign => cases hend
  | zero | whole | fraction | exponentDigits => simp [NumberPart.next?, h]

variable {limit : Nat} {stack : List Frame} {shape : Shape} {value : Json} {used : Bool}
  {purpose : Purpose} {bs done rest : List UInt8}

/-- A finished value finishes everything, does not fit, or is taken into a frame. -/
theorem deliver_cases (value : Json) (stack : List Frame) :
    stack = [] ∨ (∀ used, deliver value used stack = .unfit) ∨
      ∃ s, (∀ used, deliver value used stack = .reading s) ∧ (s.mode = .next ∨ s.mode = .colon) ∧
        s.stack.length = stack.length := by
  cases stack with
  | nil => exact .inl rfl
  | cons f stack =>
    cases f with
    | record _ _ current => cases current <;> exact .inr (.inr ⟨_, fun _ => rfl, .inl rfl, rfl⟩)
    | list | object | tuple | arm | passedList | passedObject =>
      exact .inr (.inr ⟨_, fun _ => rfl, .inl rfl, rfl⟩)
    | choice arms bare =>
      simp only [deliver]
      split
      · split
        · exact .inr (.inr ⟨_, fun _ => rfl, .inr rfl, rfl⟩)
        · exact .inr (.inl fun _ => rfl)
      · exact .inr (.inl fun _ => rfl)

theorem bounded_deliver {n : Nat} (h : stack.length ≤ n) :
    (deliver value true stack).Bounded n := by
  rcases deliver_cases value stack with rfl | hunfit | ⟨s, hs, -, hlength⟩
  · rfl
  · rw [hunfit]
    trivial
  · rw [hs]
    exact Nat.le_trans (Nat.le_of_eq hlength) h

/-- The bytes of a number are taken one after the other. -/
theorem readWithin_number {first last : NumberPart}
    (h : bs.foldlM NumberPart.next? first = some last) (done rest : List UInt8) :
    State.readWithin limit ⟨stack, .lexeme (.number first done) purpose⟩ (bs ++ rest) =
      State.readWithin limit ⟨stack, .lexeme (.number last (bs.reverse ++ done)) purpose⟩ rest := by
  induction bs generalizing first done with
  | nil =>
    cases h
    rfl
  | cons b bs ih =>
    rw [List.foldlM_cons] at h
    obtain ⟨next, hnext, hbs⟩ := Option.bind_eq_some_iff.1 h
    have hstep : State.step ⟨stack, .lexeme (.number first done) purpose⟩ b =
        .reading ⟨stack, .lexeme (.number next (b :: done)) purpose⟩ := by
      simp only [State.step, hnext]
    rw [List.cons_append, readWithin_step hstep (Nat.le_refl _), ih hbs, List.reverse_cons,
      List.append_assoc, List.singleton_append]

section

variable {part : NumberPart} {c : UInt8} {s : State}

/-- The byte after a number comes after what the number has been taken into. -/
theorem step_number_of_reading (hend : part.mayEnd = true)
    (hc : Decimal.isDigit c = false ∧ c ≠ 46 ∧ c ≠ 101 ∧ c ≠ 69)
    (hs : endNumber purpose done stack = .reading s) :
    State.step ⟨stack, .lexeme (.number part done) purpose⟩ c = stepBetween s.stack s.mode c := by
  simp [State.step, NumberPart.next?_of_ends hend hc, hend, hc.1, hs]

/-- The byte after a number has no part in it when the number finishes all or does not fit. -/
theorem step_number_of_ne_reading (hend : part.mayEnd = true)
    (hc : Decimal.isDigit c = false ∧ c ≠ 46 ∧ c ≠ 101 ∧ c ≠ 69)
    (hs : ∀ s, endNumber purpose done stack ≠ .reading s) :
    State.step ⟨stack, .lexeme (.number part done) purpose⟩ c = endNumber purpose done stack := by
  simp only [State.step, NumberPart.next?_of_ends hend hc, hend, hc.1, not_true_eq_false,
    Bool.false_eq_true, and_false, or_self, if_false]

/-- A number is read up to its end, whatever comes after it. -/
theorem readWithin_number_end (hend : part.mayEnd = true)
    (hvalue : ∀ stack, endNumber purpose done stack = deliver value false stack)
    (hrest : Ends rest) :
    State.readWithin limit ⟨stack, .lexeme (.number part done) purpose⟩ rest =
      (deliver value true stack).resume limit rest := by
  cases rest with
  | nil =>
    rcases deliver_cases value stack with rfl | hunfit | ⟨s, hs, hmode, -⟩
    · simp only [State.readWithin, State.atEnd, hend, hvalue]
      rfl
    · simp only [State.readWithin, State.atEnd, hend, hvalue, hunfit]
      rfl
    · simp only [State.readWithin, State.atEnd, hend, hvalue, hs]
      rcases hmode with hmode | hmode <;>
        simp [Progress.resume, State.readWithin, State.atEnd, hmode]
  | cons c rest =>
    have hc := hrest c rfl
    have hnil : stack.take 2 = [] → stack.drop 2 = [] := by
      intro h
      obtain rfl : stack = [] := by simpa using h
      rfl
    have hwhole (used : Bool) : (deliver value used (stack.take 2)).within limit
        (stack.take 2).length (stack.drop 2) = deliver value used stack := by
      rw [deliver_within value used hnil (Nat.le_refl _), List.take_append_drop]
    rw [State.readWithin, State.stepWithin]
    rcases deliver_cases value (stack.take 2) with htop | hunfit | ⟨s, hs, hmode, hlength⟩
    · obtain rfl : stack = [] := by simpa using htop
      rw [step_number_of_ne_reading hend hc (by simp [hvalue, deliver]), hvalue]
      rfl
    · rw [step_number_of_ne_reading hend hc (by simp [hvalue, hunfit]), hvalue, ← hwhole, hunfit,
        hunfit]
      rfl
    · -- Before the byte the number has been taken into the innermost frame.
      have hstep : State.step ⟨s.stack, s.mode⟩ c = stepBetween s.stack s.mode c := by
        rcases hmode with hmode | hmode <;> simp only [State.step, hmode]
      have hsplit : (s.stack ++ stack.drop 2).take 2 = s.stack ∧
          (s.stack ++ stack.drop 2).drop 2 = stack.drop 2 := by
        rcases Nat.lt_or_ge stack.length 2 with hlt | hge
        · rw [List.drop_eq_nil_of_le (Nat.le_of_lt hlt), List.append_nil]
          rw [List.length_take] at hlength
          exact ⟨List.take_of_length_le (by omega), List.drop_eq_nil_of_le (by omega)⟩
        · rw [List.length_take, Nat.min_eq_left hge] at hlength
          exact ⟨List.take_left' hlength, List.drop_left' hlength⟩
      rw [step_number_of_reading hend hc ((hvalue _).trans (hs false)), ← hwhole, hs true,
        within_reading (Nat.le_of_eq hlength), Progress.resume, State.readWithin, State.stepWithin,
        hsplit.1, hsplit.2, hstep, hlength]

end

/-! ## Reading a text -/

/-- One more byte of a text. -/
theorem readWithin_text {part part' : TextPart} {done' : List UInt8} {b : UInt8}
    (h : stepText purpose.passes part done b = .more part' done') (rest : List UInt8) :
    State.readWithin limit ⟨stack, .lexeme (.text part done) purpose⟩ (b :: rest) =
      State.readWithin limit ⟨stack, .lexeme (.text part' done') purpose⟩ rest := by
  have hstep : State.step ⟨stack, .lexeme (.text part done) purpose⟩ b =
      .reading ⟨stack, .lexeme (.text part' done') purpose⟩ := by
    simp only [State.step, h]
  exact readWithin_step hstep (Nat.le_refl _) rest

/-- Bytes that stand for themselves. -/
theorem readWithin_plain (h : ∀ b ∈ bs, b ≠ 34 ∧ b ≠ 92 ∧ ¬ b < 32) (done rest : List UInt8) :
    State.readWithin limit ⟨stack, .lexeme (.text .plain done) purpose⟩ (bs ++ rest) =
      State.readWithin limit ⟨stack, .lexeme (.text .plain (bs.reverse ++ done)) purpose⟩ rest := by
  induction bs generalizing done with
  | nil => rfl
  | cons b bs ih =>
    obtain ⟨⟨hquote, hslash, hcontrol⟩, hbs⟩ := List.forall_mem_cons.1 h
    have hstep : stepText purpose.passes .plain done b = .more .plain (b :: done) := by
      simp only [stepText, hquote, hslash, hcontrol, if_false]
    rw [List.cons_append, readWithin_text hstep, ih hbs, List.reverse_cons, List.append_assoc,
      List.singleton_append]

/-- A letter after a backslash. -/
theorem readWithin_escape {b c : UInt8} (h : simpleEscape? b = some c) (done rest : List UInt8) :
    State.readWithin limit ⟨stack, .lexeme (.text .plain done) purpose⟩ (92 :: b :: rest) =
      State.readWithin limit ⟨stack, .lexeme (.text .plain (c :: done)) purpose⟩ rest := by
  have hunit : b ≠ 117 := by
    rintro rfl
    cases h
  have hescaped : stepText purpose.passes .plain done 92 = .more .escaped done := rfl
  have hletter : stepText purpose.passes .escaped done b = .more .plain (c :: done) := by
    simp only [stepText, hunit, if_false, h]
  rw [readWithin_text hescaped, readWithin_text hletter]

/-- The digits of the code of a control character. -/
theorem control_digits : ∀ n < 32,
    (Text.hexDigit (n / 16)).toNat < 128 ∧ (Text.hexDigit (n % 16)).toNat < 128 ∧
      codeUnit? [UInt8.ofNat (Text.hexDigit (n % 16)).toNat,
        UInt8.ofNat (Text.hexDigit (n / 16)).toNat, 48, 48] = some n ∧
      charBytes n = [UInt8.ofNat n] := by
  decide

/-- The code of a control character after a backslash. -/
theorem readWithin_control {n : Nat} (hn : n < 32) (done rest : List UInt8) :
    State.readWithin limit ⟨stack, .lexeme (.text .plain done) purpose⟩
        (spell ['\\', 'u', '0', '0', Text.hexDigit (n / 16), Text.hexDigit (n % 16)] ++ rest) =
      State.readWithin limit ⟨stack, .lexeme (.text .plain
        (if purpose.passes then done else UInt8.ofNat n :: done)) purpose⟩ rest := by
  obtain ⟨hhigh, hlow, hunit, hchar⟩ := control_digits n hn
  have hlast : stepText purpose.passes
      (.unit [UInt8.ofNat (Text.hexDigit (n / 16)).toNat, 48, 48]) done
      (UInt8.ofNat (Text.hexDigit (n % 16)).toNat) =
        .more .plain (if purpose.passes then done else UInt8.ofNat n :: done) := by
    have hplain : endUnit n done = .more .plain (UInt8.ofNat n :: done) := by
      rw [endUnit, if_neg (by omega), if_neg (by omega), hchar, List.singleton_append]
    simp only [stepText, List.length_cons, List.length_nil, Nat.lt_irrefl, if_false, hunit, hplain]
    split <;> rfl
  rw [Text.spell_cons_of_lt (by decide), Text.spell_cons_of_lt (by decide),
    Text.spell_cons_of_lt (by decide), Text.spell_cons_of_lt (by decide),
    Text.spell_cons_of_lt hhigh, Text.spell_cons_of_lt hlow]
  have hescaped : stepText purpose.passes .plain done 92 = .more .escaped done := rfl
  have hmark : stepText purpose.passes .escaped done 117 = .more (.unit []) done := rfl
  have hfirst : stepText purpose.passes (.unit []) done 48 = .more (.unit [48]) done := rfl
  have hsecond : stepText purpose.passes (.unit [48]) done 48 = .more (.unit [48, 48]) done := rfl
  have hthird (b : UInt8) :
      stepText purpose.passes (.unit [48, 48]) done b = .more (.unit [b, 48, 48]) done := rfl
  exact (readWithin_text hescaped _).trans <| (readWithin_text hmark _).trans <|
    (readWithin_text hfirst _).trans <| (readWithin_text hsecond _).trans <|
    (readWithin_text (hthird _) _).trans (readWithin_text hlast _)

/-- The bytes of a character that is not escaped stand for themselves. -/
theorem plain_of_mem {c : Char} (hquote : ¬ c = '"') (hslash : ¬ c = '\\')
    (hcontrol : ¬ c.toNat < 32) : ∀ b ∈ String.utf8EncodeChar c, b ≠ 34 ∧ b ≠ 92 ∧ ¬ b < 32 := by
  intro b hb
  rcases UInt8.lt_or_le b 128 with hlt | hle
  · have hcode := (Text.utf8EncodeChar_of_mem_of_lt hb hlt).1
    refine ⟨?_, ?_, ?_⟩
    · rintro rfl
      exact hquote (Char.toNat_inj.1 hcode)
    · rintro rfl
      exact hslash (Char.toNat_inj.1 hcode)
    · rw [UInt8.lt_iff_toNat_lt, ← hcode]
      exact hcontrol
  · refine ⟨?_, ?_, UInt8.not_lt.2 (UInt8.le_trans (by decide) hle)⟩ <;>
    · rintro rfl
      exact absurd hle (by decide)

/-- A character of a written text. -/
theorem readWithin_char (limit : Nat) (stack : List Frame) (purpose : Purpose) (c : Char)
    (done rest : List UInt8) :
    ∃ done', (purpose.passes = false → done' = (String.utf8EncodeChar c).reverse ++ done) ∧
      State.readWithin limit ⟨stack, .lexeme (.text .plain done) purpose⟩
          (spell (escape c) ++ rest) =
        State.readWithin limit ⟨stack, .lexeme (.text .plain done') purpose⟩ rest := by
  have hescape {b d : UInt8} {c : Char} (hb : simpleEscape? b = some d)
      (hd : String.utf8EncodeChar c = [d]) :
      ∃ done', (purpose.passes = false → done' = (String.utf8EncodeChar c).reverse ++ done) ∧
        State.readWithin limit ⟨stack, .lexeme (.text .plain done) purpose⟩ (92 :: b :: rest) =
          State.readWithin limit ⟨stack, .lexeme (.text .plain done') purpose⟩ rest :=
    ⟨d :: done, fun _ => by rw [hd]; rfl, readWithin_escape hb done rest⟩
  unfold escape
  split
  · subst c
    exact hescape (b := 34) rfl rfl
  split
  · subst c
    exact hescape (b := 92) rfl rfl
  split
  · subst c
    exact hescape (b := 110) rfl rfl
  split
  · subst c
    exact hescape (b := 114) rfl rfl
  split
  · subst c
    exact hescape (b := 116) rfl rfl
  split
  · obtain rfl : c = Char.ofNat 8 := Char.toNat_inj.1 ‹_›
    exact hescape (b := 98) rfl rfl
  split
  · obtain rfl : c = Char.ofNat 12 := Char.toNat_inj.1 ‹_›
    exact hescape (b := 102) rfl rfl
  split
  · rename_i hcontrol
    refine ⟨_, ?_, readWithin_control hcontrol done rest⟩
    intro hpasses
    rw [hpasses, Text.utf8EncodeChar_of_lt (Nat.lt_trans hcontrol (by decide))]
    rfl
  · rename_i hquote hslash _ _ _ _ _ hcontrol
    refine ⟨_, fun _ => rfl, ?_⟩
    rw [Text.spell_cons, Text.spell_nil, List.append_nil]
    exact readWithin_plain (plain_of_mem hquote hslash hcontrol) done rest

/-- The characters of a written text. -/
theorem readWithin_chars (limit : Nat) (stack : List Frame) (purpose : Purpose) (cs : List Char)
    (done rest : List UInt8) :
    ∃ done', (purpose.passes = false → done' = (spell cs).reverse ++ done) ∧
      State.readWithin limit ⟨stack, .lexeme (.text .plain done) purpose⟩
          (spell (cs.flatMap escape) ++ rest) =
        State.readWithin limit ⟨stack, .lexeme (.text .plain done') purpose⟩ rest := by
  induction cs generalizing done with
  | nil => exact ⟨done, fun _ => rfl, rfl⟩
  | cons c cs ih =>
    obtain ⟨mid, hmid, hchar⟩ :=
      readWithin_char limit stack purpose c done (spell (cs.flatMap escape) ++ rest)
    obtain ⟨done', hdone', hchars⟩ := ih mid
    refine ⟨done', ?_, ?_⟩
    · intro hpasses
      rw [hdone' hpasses, hmid hpasses, Text.spell_cons, List.reverse_append, List.append_assoc]
    · rw [List.flatMap_cons, Text.spell_append, List.append_assoc, hchar, hchars]

/-- What a text is taken for that is not passed over, and what one that is. -/
def Purpose.textOf (purpose : Purpose) (s : String) : Json :=
  if purpose.passes then .null else .str s

/-- A written text is read up to the quote at its end. -/
theorem readWithin_quote (limit : Nat) (s : String) (rest : List UInt8)
    (h : (complete purpose (purpose.textOf s) true stack).Bounded stack.length) :
    State.readWithin limit ⟨stack, .lexeme (.text .plain []) purpose⟩
        (spell (s.toList.flatMap escape) ++ 34 :: rest) =
      (complete purpose (purpose.textOf s) true stack).resume limit rest := by
  obtain ⟨done, hdone, hchars⟩ := readWithin_chars limit stack purpose s.toList [] (34 :: rest)
  have hstep : State.step ⟨stack, .lexeme (.text .plain done) purpose⟩ 34 =
      complete purpose (purpose.textOf s) true stack := by
    have hended : stepText purpose.passes .plain done 34 = .ended := rfl
    simp only [State.step, hended, Purpose.textOf]
    cases hpasses : purpose.passes with
    | true => rfl
    | false =>
      rw [hdone hpasses, List.append_nil, List.reverse_reverse, ← Text.bytes_eq_spell,
        Text.ofBytes?_bytes]
      rfl
  rw [hchars, readWithin_cons (by rw [hstep]; exact h), hstep]

end Json.Reader

end StorageControl
