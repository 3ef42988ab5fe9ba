/-
# Beginnings of a value

While a reader goes on over the beginning of an object it stands inside of that object. So the
beginning is never taken for a value of its own, and wherever it is cut, more bytes are waited for.
Only inside a number the cut can be noticed: when the number is passed over it must be one that may
end there, and when it is kept, and may end there, it must have a value.
-/
import StorageControl.Proofs.Numeral
import StorageControl.Proofs.Reader

namespace StorageControl

/-! ## Shapes -/

/-- The shape has no words and no variants, and zero is a number of every range in it. -/
inductive Shape.Plain : Shape → Prop
  | any : Plain .any
  | skipped : Plain .skipped
  | nothing : Plain .nothing
  | flag : Plain .flag
  | text : Plain .text
  | whole {least greatest : Int} (hleast : least ≤ 0) (hgreatest : 0 ≤ greatest) :
      Plain (.whole least greatest)
  | nullable {shape : Shape} (h : Plain shape) : Plain (.nullable shape)
  | list {item : Shape} (h : Plain item) : Plain (.list item)
  | record {fields : List Field} (h : ∀ f ∈ fields, Plain f.2.2) : Plain (.record fields)

/-- A number of a plain shape may be any number, or any one in a range with zero in it. -/
theorem Shape.Plain.fit_num {shape : Shape} (hshape : shape.Plain) {n : Number} {v : Json}
    (h : shape.fit (.num n) = some v) :
    (∀ m, ∃ w, shape.fit (.num m) = some w) ∨
      ∃ k least greatest, n = .whole k ∧ least ≤ 0 ∧ 0 ≤ greatest ∧ least ≤ k ∧ k ≤ greatest ∧
        ∀ j, least ≤ j → j ≤ greatest → ∃ w, shape.fit (.num (.whole j)) = some w := by
  induction hshape with
  | any => exact .inl fun m => ⟨_, rfl⟩
  | skipped => exact .inl fun m => ⟨_, rfl⟩
  | nothing | flag | text | list | record => cases h
  | @whole least greatest hleast hgreatest =>
    cases n with
    | real => cases h
    | whole k =>
      simp only [fit] at h
      split at h
      · rename_i hk
        refine .inr ⟨k, least, greatest, rfl, hleast, hgreatest, hk.1, hk.2, fun j hl hg => ?_⟩
        exact ⟨_, if_pos ⟨hl, hg⟩⟩
      · cases h
  | nullable _ ih => exact ih h

namespace Json.Reader

/-! ## Where a reader can stand -/

/-- The shapes of a frame are plain. -/
def Frame.Plain : Frame → Prop
  | .list item _ => item.Plain
  | .record fields _ current => (∀ f ∈ fields, f.2.2.Plain) ∧ ∀ f ∈ current, f.2.2.Plain
  | .tuple fields left _ => (∀ f ∈ fields, f.2.2.Plain) ∧ ∀ f ∈ left, f.2.2.Plain
  | .object _ _ | .passedList | .passedObject => True
  | .choice _ _ | .arm _ _ _ _ => False

/-- The shape of a mode is plain. A number is the beginning of one, and it is for a value. -/
def Mode.Plain : Mode → Prop
  | .value shape => shape.Plain
  | .lexeme (.number part done) purpose =>
    part.Spells done.reverse ∧ ∃ shape, purpose = .value shape ∧ shape.Plain
  | .lexeme _ purpose => ∀ shape, purpose = .value shape → shape.Plain
  | .first | .next | .firstKey | .key | .colon => True

/-- The reader stands inside of a list, an object or a record. -/
structure Inside (stack : List Frame) : Prop where
  ne_nil : stack ≠ []
  plain : ∀ f ∈ stack, f.Plain

/-- The reader stands inside of something, and its shapes are plain. -/
structure State.Plain (s : State) : Prop where
  inside : Inside s.stack
  mode : s.mode.Plain

/-- A reader that goes on stands inside of something. -/
def Progress.Plain : Progress → Prop
  | .reading s => s.Plain
  | .finished _ _ | .malformed | .unfit => True

section

variable {used : Bool} {stack : List Frame} {shape : Shape} {f : Frame}

theorem Inside.cons (hf : f.Plain) (h : ∀ g ∈ stack, g.Plain) : Inside (f :: stack) :=
  ⟨nofun, List.forall_mem_cons.2 ⟨hf, h⟩⟩

/-! ### Finished parts -/

/-- A value that is put in its place leaves the reader inside of something, or finishes it. -/
theorem deliver_plain (value : Json) (used : Bool) (h : ∀ g ∈ stack, g.Plain) :
    (deliver value used stack).Plain := by
  cases stack with
  | nil => trivial
  | cons f stack =>
    obtain ⟨hf, hstack⟩ := List.forall_mem_cons.1 h
    cases f with
    | list | object | passedList | passedObject => exact ⟨.cons hf hstack, trivial⟩
    | record fields done current =>
      cases current with
      | none => exact ⟨.cons hf hstack, trivial⟩
      | some current => exact ⟨.cons ⟨hf.1, nofun⟩ hstack, trivial⟩
    | tuple fields left done =>
      exact ⟨.cons ⟨hf.1, fun f hleft => hf.2 f (List.mem_of_mem_tail hleft)⟩ hstack, trivial⟩
    | choice | arm => cases hf

theorem deliverKey_plain (key : String) (h : Inside stack) : (deliverKey key stack).Plain := by
  cases stack with
  | nil => exact absurd rfl h.ne_nil
  | cons f stack =>
    obtain ⟨hf, hstack⟩ := List.forall_mem_cons.1 h.plain
    cases f with
    | record fields done current =>
      unfold deliverKey
      cases hfind : fields.find? fun f => f.1 == key with
      | none => simp only [hfind]; exact ⟨.cons ⟨hf.1, nofun⟩ hstack, trivial⟩
      | some f =>
        simp only [hfind]
        split
        · trivial
        · refine ⟨.cons ⟨hf.1, ?_⟩ hstack, trivial⟩
          rintro g ⟨⟩
          exact hf.1 f (List.mem_of_find?_eq_some hfind)
    | object | list | tuple | passedList | passedObject => exact ⟨.cons hf hstack, trivial⟩
    | choice | arm => cases hf

theorem complete_plain (purpose : Purpose) (value : Json) (used : Bool) (h : Inside stack) :
    (complete purpose value used stack).Plain := by
  unfold complete
  repeat' split
  · exact deliver_plain _ _ h.plain
  · trivial
  · exact deliverKey_plain _ h
  · trivial
  · exact ⟨h, trivial⟩

theorem close_plain (brace : Bool) (h : Inside stack) : (close brace stack).Plain := by
  cases stack with
  | nil => trivial
  | cons f stack =>
    obtain ⟨-, hstack⟩ := List.forall_mem_cons.1 h.plain
    cases f with
    | choice => trivial
    | list | object | record | tuple | arm | passedList | passedObject =>
      simp only [close]
      repeat' split
      all_goals first | trivial | exact deliver_plain _ _ hstack

/-! ### First bytes -/

theorem push_plain {mode : Mode} (hf : f.Plain) (hmode : mode.Plain)
    (h : ∀ g ∈ stack, g.Plain) : (push f mode stack).Plain := by
  unfold push
  split
  · exact ⟨.cons hf h, hmode⟩
  · trivial

theorem openBracket_plain (hshape : shape.Plain) (h : ∀ g ∈ stack, g.Plain) :
    (openBracket stack shape).Plain := by
  cases hshape with
  | any => exact push_plain .any trivial h
  | skipped => exact ⟨.cons trivial h, trivial⟩
  | list hitem => exact push_plain hitem trivial h
  | record hfields => exact push_plain ⟨hfields, hfields⟩ trivial h
  | nothing | flag | text | whole | nullable => trivial

theorem openBrace_plain (hshape : shape.Plain) (h : ∀ g ∈ stack, g.Plain) :
    (openBrace stack shape).Plain := by
  cases hshape with
  | any => exact push_plain trivial trivial h
  | skipped => exact ⟨.cons trivial h, trivial⟩
  | record hfields => exact push_plain ⟨hfields, nofun⟩ trivial h
  | nothing | flag | text | whole | nullable | list => trivial

/-- A lexeme that starts is the beginning of one. -/
theorem plain_of_lexeme? {b : UInt8} {l : Lexeme} (hl : lexeme? b = some l)
    (hshape : shape.Plain) : (Mode.lexeme l (.value shape)).Plain := by
  have hpurpose (s : Shape) (hs : Purpose.value shape = .value s) : s.Plain := by
    cases hs
    exact hshape
  unfold lexeme? at hl
  split at hl
  · cases hl
    exact hpurpose
  split at hl
  · cases hl
    exact hpurpose
  split at hl
  · cases hl
    exact hpurpose
  split at hl
  · cases hl
    exact hpurpose
  split at hl
  · rename_i hb
    cases hl
    rw [hb]
    exact ⟨.sign, shape, rfl, hshape⟩
  split at hl
  · rename_i hb
    cases hl
    rw [hb]
    exact ⟨.zero (.inl rfl), shape, rfl, hshape⟩
  split at hl
  · rename_i hb hdigit
    cases hl
    have hdigit : Decimal.isDigit b = true :=
      Decimal.isDigit_iff.2 ⟨UInt8.le_trans (by decide) hdigit.1, hdigit.2⟩
    exact ⟨.whole (.inl rfl) (by simpa) hb, shape, rfl, hshape⟩
  · cases hl

/-- A value that begins leaves the reader inside of something. -/
theorem begin_plain (hshape : shape.Plain) (h : Inside stack) (b : UInt8) :
    (begin stack shape b).Plain := by
  fun_induction begin stack shape b with
  | case1 =>
    refine ⟨h, ?_⟩
    rintro s ⟨⟩
    exact .nothing
  | case2 _ _ _ ih =>
    cases hshape with
    | nullable hshape => exact ih hshape
  | case9 => exact openBracket_plain hshape h.plain
  | case10 => exact openBrace_plain hshape h.plain
  | case11 _ _ _ _ _ _ _ _ hl => exact ⟨h, plain_of_lexeme? hl hshape⟩
  | case12 => trivial
  | _ => cases hshape

/-! ### Bytes between lexemes -/

theorem stepFirst_plain (h : Inside stack) (b : UInt8) : (stepFirst stack b).Plain := by
  unfold stepFirst
  split
  · exact close_plain false h
  · split
    · exact begin_plain (h.plain _ List.mem_cons_self) h b
    · exact begin_plain ((h.plain _ List.mem_cons_self).2 _ List.mem_cons_self) h b
    · exact begin_plain .skipped h b
    · trivial

theorem afterComma_plain (h : Inside stack) : (afterComma stack).Plain := by
  unfold afterComma
  split
  · exact ⟨h, h.plain _ List.mem_cons_self⟩
  · exact ⟨h, (h.plain _ List.mem_cons_self).2 _ List.mem_cons_self⟩
  · exact ⟨h, .skipped⟩
  · exact ⟨h, trivial⟩
  · exact ⟨h, trivial⟩
  · exact ⟨h, trivial⟩
  · trivial

/-- The value that comes after a colon has a plain shape. -/
theorem valueShape_plain (h : Inside stack) : (valueShape stack).Plain := by
  unfold valueShape
  split
  · exact .any
  · exact (h.plain _ List.mem_cons_self).2 _ rfl
  · exact (h.plain _ List.mem_cons_self).elim
  · exact .skipped

theorem stepKey_plain (h : Inside stack) (b : UInt8) : (stepKey stack b).Plain := by
  unfold stepKey
  split
  · refine ⟨h, ?_⟩
    intro shape hpurpose
    split at hpurpose <;> cases hpurpose
  · trivial

theorem stepBetween_plain {mode : Mode} (h : Inside stack) (hmode : mode.Plain) (b : UInt8) :
    (stepBetween stack mode b).Plain := by
  unfold stepBetween
  split
  · exact ⟨h, hmode⟩
  · cases mode with
    | value => exact begin_plain hmode h b
    | first => exact stepFirst_plain h b
    | next =>
      simp only
      repeat' split
      · exact afterComma_plain h
      · exact close_plain false h
      · exact close_plain true h
      · trivial
    | firstKey =>
      simp only
      split
      · exact close_plain true h
      · exact stepKey_plain h b
    | key => exact stepKey_plain h b
    | colon =>
      simp only
      split
      · exact ⟨h, valueShape_plain h⟩
      · trivial
    | lexeme => trivial

/-- The end of a number leaves the reader inside of something, or finishes it. -/
theorem endNumber_plain (purpose : Purpose) (done : List UInt8) (h : Inside stack) :
    (endNumber purpose done stack).Plain := by
  unfold endNumber
  repeat' split
  · exact complete_plain _ _ _ h
  · exact complete_plain _ _ _ h
  · trivial

end

/-! ### Steps -/

/-- A reader that stands inside of something, and goes on after a byte, still does. -/
theorem step_plain {s : State} (h : s.Plain) (b : UInt8) : (s.step b).Plain := by
  obtain ⟨stack, mode⟩ := s
  obtain ⟨hinside, hmode⟩ := h
  cases mode with
  | value | first | next | firstKey | key | colon =>
    exact stepBetween_plain hinside hmode b
  | lexeme l purpose =>
    cases l with
    | word left value =>
      cases left with
      | nil => exact complete_plain _ _ _ hinside
      | cons c left =>
        simp only [State.step]
        repeat' split
        · trivial
        · exact complete_plain _ _ _ hinside
        · exact ⟨hinside, hmode⟩
    | text part done =>
      simp only [State.step]
      repeat' split
      · exact ⟨hinside, hmode⟩
      · trivial
      · exact complete_plain _ _ _ hinside
      · exact complete_plain _ _ _ hinside
      · trivial
    | number part done =>
      obtain ⟨hspells, hpurpose⟩ := hmode
      simp only [State.step]
      split
      · rename_i next hnext
        refine ⟨hinside, ?_, hpurpose⟩
        rw [List.reverse_cons]
        exact hspells.next hnext
      · split
        · trivial
        · have hend := endNumber_plain purpose done hinside
          split
          · rename_i t ht
            rw [ht] at hend
            exact stepBetween_plain hend.inside hend.mode b
          · exact hend

/-! ## Reading on -/

/-- The reader after some bytes, if it goes on after each of them. -/
def State.feed (s : State) : List UInt8 → Option State
  | [] => some s
  | b :: bs =>
    match s.step b with
    | .reading t => t.feed bs
    | _ => none

namespace State

variable {s t : State} {bs more rest : List UInt8} {value : Json}

theorem feed_cons_eq_some {b : UInt8} (h : s.feed (b :: bs) = some t) :
    ∃ u, s.step b = .reading u ∧ u.feed bs = some t := by
  unfold feed at h
  split at h
  · exact ⟨_, ‹_›, h⟩
  · cases h

/-- What is read in two parts is read in one. -/
theorem read_append (h : s.feed bs = some t) (more : List UInt8) :
    s.read (bs ++ more) = t.read more := by
  induction bs generalizing s with
  | nil =>
    cases h
    rfl
  | cons b bs ih =>
    obtain ⟨u, hstep, hfeed⟩ := feed_cons_eq_some h
    rw [List.cons_append, read, hstep]
    exact ih hfeed

/-- When the bytes end, what comes of it is up to the reader after them. -/
theorem read_of_feed (h : s.feed bs = some t) : s.read bs = t.atEnd := by
  have hread := read_append h []
  rwa [List.append_nil] at hread

/-- A reader that goes on after some bytes still stands inside of something. -/
theorem plain_of_feed (hs : s.Plain) (h : s.feed bs = some t) : t.Plain := by
  induction bs generalizing s with
  | nil =>
    cases h
    exact hs
  | cons b bs ih =>
    obtain ⟨u, hstep, hfeed⟩ := feed_cons_eq_some h
    have hu := step_plain hs b
    rw [hstep] at hu
    exact ih hu hfeed

/-- A reader goes on until the last byte of what it finds. -/
theorem exists_feed_of_read (h : s.read (bs ++ more) = .found value []) (hmore : more ≠ []) :
    ∃ t, s.feed bs = some t := by
  induction bs generalizing s with
  | nil => exact ⟨s, rfl⟩
  | cons b bs ih =>
    rw [List.cons_append, read] at h
    cases hstep : s.step b with
    | reading u =>
      rw [hstep] at h
      rw [feed, hstep]
      exact ih h
    | finished found used =>
      rw [hstep] at h
      cases used with
      | false => cases h
      | true =>
        obtain ⟨-, hnil⟩ := Reading.found.inj h
        exact absurd (List.append_eq_nil_iff.1 hnil).2 hmore
    | malformed | unfit =>
      rw [hstep] at h
      cases h

/-! ### Cuts -/

/-- Inside of something a part that is finished is taken in. -/
theorem exists_deliver {stack : List Frame} (h : Inside stack) (value : Json) (used : Bool) :
    ∃ t, deliver value used stack = .reading t := by
  cases stack with
  | nil => exact absurd rfl h.ne_nil
  | cons f stack =>
    cases f with
    | record _ _ current => cases current <;> exact ⟨_, rfl⟩
    | choice | arm => exact (h.plain _ List.mem_cons_self).elim
    | list | object | tuple | passedList | passedObject => exact ⟨_, rfl⟩

/-- Inside of something nothing is finished by the end of a number. -/
theorem endNumber_ne_finished {stack : List Frame} (h : Inside stack) {shape : Shape}
    {done : List UInt8} {used : Bool} :
    endNumber (.value shape) done stack ≠ .finished value used := by
  have hcomplete (v : Json) : complete (.value shape) v false stack ≠ .finished value used := by
    simp only [complete]
    split
    · obtain ⟨t, ht⟩ := exists_deliver h ‹Json› false
      rw [ht]
      nofun
    · nofun
  unfold endNumber
  repeat' split
  · exact hcomplete _
  · exact hcomplete _
  · nofun

/-- A reader that stands inside of something has found nothing yet. -/
theorem atEnd_ne_found (h : s.Plain) : s.atEnd ≠ .found value rest := by
  intro hfound
  obtain ⟨stack, mode⟩ := s
  cases mode with
  | value | first | next | firstKey | key | colon => cases hfound
  | lexeme l purpose =>
    cases l with
    | word | text => cases hfound
    | number part done =>
      obtain ⟨-, shape, rfl, -⟩ := h.mode
      simp only [atEnd] at hfound
      repeat' split at hfound
      · cases hfound
      · exact absurd ‹_› (endNumber_ne_finished h.inside)
      all_goals cases hfound

/-- The reader does not notice when it is cut off here. If it is inside a number that is passed
over, the number may end; if it is inside another one, the number may not end, or has a value. -/
def cuttable (s : State) : Bool :=
  match s.mode with
  | .lexeme (.number part done) purpose =>
    if purpose.passes then part.mayEnd
    else !part.mayEnd || (Number.ofLiteral? (Decimal.Literal.ofBytes done.reverse)).isSome
  | _ => true

/-- A reader that notices takes the bytes for malformed. -/
theorem atEnd_of_not_cuttable (h : s.cuttable = false) : s.atEnd = .malformed := by
  obtain ⟨stack, mode⟩ := s
  cases mode with
  | value | first | next | firstKey | key | colon => cases h
  | lexeme l purpose =>
    cases l with
    | word | text => cases h
    | number part done =>
      simp only [cuttable] at h
      simp only [atEnd]
      split at h
      · rename_i hpasses
        rw [h, if_neg Bool.false_ne_true, if_pos hpasses]
      · rename_i hpasses
        rw [Bool.or_eq_false_iff, Bool.not_eq_false', Option.isSome_eq_false_iff,
          Option.isNone_iff_eq_none] at h
        rw [if_pos h.1, endNumber, if_neg hpasses, h.2]

/-- A number in which a value goes on has a beginning that fits where the whole number does. -/
theorem exists_number_of_read {stack : List Frame} {part : NumberPart} {done : List UInt8}
    {shape : Shape} (hs : State.Plain ⟨stack, .lexeme (.number part done) (.value shape)⟩)
    (hpasses : (Purpose.value shape).passes = false)
    (h : State.read ⟨stack, .lexeme (.number part done) (.value shape)⟩ bs = .found value rest) :
    ∃ part' more n v, NumberPart.Spells part' (done.reverse ++ more) ∧
      Number.ofLiteral? (Decimal.Literal.ofBytes (done.reverse ++ more)) = some n ∧
        shape.fit (.num n) = some v := by
  induction bs generalizing part done with
  | nil => exact absurd h (atEnd_ne_found hs)
  | cons b bs ih =>
    rw [read] at h
    have hstep := step_plain hs b
    simp only [step] at h hstep
    cases hnext : part.next? b with
    | some next =>
      simp only [hnext] at h hstep
      obtain ⟨part', more, n, v, hspells, hn, hfit⟩ := ih hstep h
      rw [List.reverse_cons, List.append_assoc] at hspells hn
      exact ⟨part', _, n, v, hspells, hn, hfit⟩
    | none =>
      simp only [hnext] at h
      refine ⟨part, [], ?_⟩
      rw [List.append_nil]
      by_cases hbroken : ¬ part.mayEnd ∨ part = .zero ∧ Decimal.isDigit b
      · rw [if_pos hbroken] at h
        cases h
      · rw [if_neg hbroken, endNumber, if_neg (by simp [hpasses])] at h
        cases hn : Number.ofLiteral? (Decimal.Literal.ofBytes done.reverse) with
        | none =>
          simp only [hn] at h
          cases h
        | some n =>
          simp only [hn, complete] at h
          cases hfit : shape.fit (.num n) with
          | none =>
            simp only [hfit] at h
            cases h
          | some v => exact ⟨n, v, hs.mode.1, rfl, hfit⟩

/-- A beginning of a value after which a reader does not notice that it is cut off is waited on. -/
theorem atEnd_of_cuttable (hs : s.Plain) (hcut : s.cuttable = true)
    (h : s.read bs = .found value rest) : s.atEnd = .truncated := by
  obtain ⟨stack, mode⟩ := s
  cases mode with
  | value | first | next | firstKey | key | colon => rfl
  | lexeme l purpose =>
    cases l with
    | word | text => rfl
    | number part done =>
      obtain ⟨hspells, shape, rfl, hshape⟩ := hs.mode
      simp only [cuttable] at hcut
      simp only [atEnd]
      cases hpasses : (Purpose.value shape).passes with
      | true =>
        rw [hpasses, if_pos rfl] at hcut
        obtain rfl : shape = .skipped := by
          cases shape <;> first | rfl | cases hpasses
        obtain ⟨t, ht⟩ := exists_deliver hs.inside .null false
        rw [if_pos hcut, endNumber, if_pos hpasses]
        simp only [complete, Shape.fit, ht]
      | false =>
        rw [hpasses, if_neg Bool.false_ne_true] at hcut
        cases hend : part.mayEnd with
        | false => rfl
        | true =>
          rw [hend] at hcut
          obtain ⟨m, hm⟩ := Option.isSome_iff_exists.1 hcut
          obtain ⟨part', more, n, v, hspells', hn, hfit⟩ := exists_number_of_read hs hpasses h
          have hm' : ∃ w, shape.fit (.num m) = some w := by
            rcases hshape.fit_num hfit with
              hany | ⟨k, least, greatest, rfl, hleast, hgreatest, hlow, hhigh, hrange⟩
            · exact hany m
            · obtain ⟨j, hj, hbetween⟩ := hspells.whole_of_append hend hspells' hn
              rw [hj] at hm
              cases hm
              exact hrange j (by omega) (by omega)
          obtain ⟨w, hw⟩ := hm'
          obtain ⟨t, ht⟩ := exists_deliver hs.inside w false
          rw [if_pos rfl, endNumber, if_neg (by simp [hpasses]), hm]
          simp only [complete, hw, ht]

/-- What comes after a value that is finished is left. -/
theorem read_append_of_found (hs : s.Plain) (h : s.read bs = .found value []) (more : List UInt8) :
    s.read (bs ++ more) = .found value more := by
  induction bs generalizing s with
  | nil => exact absurd h (atEnd_ne_found hs)
  | cons b bs ih =>
    rw [List.cons_append, read]
    rw [read] at h
    have hstep := step_plain hs b
    cases hb : s.step b with
    | reading u =>
      rw [hb] at h hstep
      exact ih hstep h
    | finished found used =>
      rw [hb] at h
      cases used with
      | false => cases h
      | true =>
        cases h
        rfl
    | malformed | unfit =>
      rw [hb] at h
      cases h

end State

end Json.Reader

end StorageControl
