/-
# What is read can be passed over

A reader that passes a value over follows one that reads it under a shape: it opens and closes the
same brackets and stands at the same part of the same lexeme, but keeps nothing and accepts any
texts, keys and numbers. So it goes on wherever the other one does, and ends where the other one
finds a value.
-/
import StorageControl.Proofs.Prefix

namespace StorageControl

namespace Json.Reader

/-! ## One reader follows another -/

/-- The frame that is open instead when nothing is kept. -/
def Frame.shadow : Frame → Frame
  | .list _ _ | .tuple _ _ _ | .passedList => .passedList
  | .object _ _ | .record _ _ _ | .choice _ _ | .arm _ _ _ _ | .passedObject => .passedObject

/-- The part of a text when the halves of surrogate pairs are not put together. -/
def TextPart.shadow : TextPart → TextPart
  | .plain | .afterHigh _ => .plain
  | .escaped | .afterHighMark _ => .escaped
  | .unit digits | .lowUnit _ digits => .unit digits

/-- The purpose of a lexeme when it is passed over. -/
def Purpose.shadow : Purpose → Purpose
  | .value _ => .value .skipped
  | .key | .passedKey => .passedKey

/-- What comes next when nothing is kept, inside of the given frames. Keys are only expected in
objects. -/
inductive Mode.Shadowed (stack : List Frame) : Mode → Mode → Prop
  | value (shape : Shape) : Shadowed stack (.value shape) (.value .skipped)
  | first : Shadowed stack .first .first
  | next : Shadowed stack .next .next
  | firstKey (h : stack.head? = some .passedObject) : Shadowed stack .firstKey .firstKey
  | key (h : stack.head? = some .passedObject) : Shadowed stack .key .key
  | colon : Shadowed stack .colon .colon
  | word (left : List UInt8) (value : Json) (purpose : Purpose) :
      Shadowed stack (.lexeme (.word left value) purpose)
        (.lexeme (.word left value) purpose.shadow)
  | text (part : TextPart) (done done' : List UInt8) (purpose : Purpose) :
      Shadowed stack (.lexeme (.text part done) purpose)
        (.lexeme (.text part.shadow done') purpose.shadow)
  | number (part : NumberPart) (done done' : List UInt8) (purpose : Purpose) :
      Shadowed stack (.lexeme (.number part done) purpose)
        (.lexeme (.number part done') purpose.shadow)

/-- The second reader passes over what the first one reads. -/
structure State.Shadowed (s t : State) : Prop where
  stack : t.stack = s.stack.map Frame.shadow
  mode : s.mode.Shadowed t.stack t.mode

/-- As long as the first reader goes on, and when it finishes a value, so does the second one. -/
def Progress.Shadowed : Progress → Progress → Prop
  | .reading s, q => ∃ t, q = .reading t ∧ s.Shadowed t
  | .finished _ used, q => q = .finished .null used
  | .malformed, _ | .unfit, _ => True

section

variable {stack : List Frame} {shape : Shape}

/-- Two readers go on together if they stand in the same frames and the one follows the other. -/
theorem shadowed_reading {mode mode' : Mode}
    (h : mode.Shadowed (stack.map Frame.shadow) mode') :
    (Progress.reading ⟨stack, mode⟩).Shadowed (.reading ⟨stack.map Frame.shadow, mode'⟩) :=
  ⟨_, rfl, rfl, h⟩

@[simp] theorem Purpose.passes_shadow (purpose : Purpose) : purpose.shadow.passes = true := by
  cases purpose <;> rfl

/-! ### Finished parts -/

/-- What is delivered to a frame that keeps nothing is gone, and the next item is due in both. -/
theorem deliver_shadowed (value : Json) (used : Bool) (h : ∀ f ∈ stack, f.Plain) :
    (deliver value used stack).Shadowed (deliver .null used (stack.map Frame.shadow)) := by
  cases stack with
  | nil => rfl
  | cons f stack =>
    have hf := h f List.mem_cons_self
    cases f with
    | record _ _ current => cases current <;> exact shadowed_reading .next
    | list | object | tuple | passedList | passedObject => exact shadowed_reading .next
    | choice | arm => cases hf

/-- A key that a frame accepts is followed by a colon in both. -/
theorem deliverKey_shadowed (key : String) (stack : List Frame) :
    (deliverKey key stack).Shadowed (.reading ⟨stack.map Frame.shadow, .colon⟩) := by
  unfold deliverKey
  repeat' split
  all_goals first | trivial | exact shadowed_reading .colon

/-- A complete lexeme is delivered in both, if it fits in the first. -/
theorem complete_shadowed (purpose : Purpose) (value value' : Json) (used : Bool)
    (h : ∀ f ∈ stack, f.Plain) :
    (complete purpose value used stack).Shadowed
      (complete purpose.shadow value' used (stack.map Frame.shadow)) := by
  cases purpose with
  | value shape =>
    have hskipped : complete (Purpose.value shape).shadow value' used (stack.map Frame.shadow) =
        deliver .null used (stack.map Frame.shadow) := by
      cases value' <;> rfl
    rw [hskipped, complete]
    split
    · exact deliver_shadowed _ used h
    · trivial
  | key =>
    cases value with
    | str key => exact deliverKey_shadowed key stack
    | null | bool | num | arr | obj => trivial
  | passedKey => exact shadowed_reading .colon

/-- What the first reader may close the second one may close, too: the brackets are the same, and
nothing is missing from a frame that keeps nothing. -/
theorem close_shadowed (brace : Bool) (h : ∀ f ∈ stack, f.Plain) :
    (close brace stack).Shadowed (close brace (stack.map Frame.shadow)) := by
  cases stack with
  | nil => trivial
  | cons f stack =>
    obtain ⟨hf, hstack⟩ := List.forall_mem_cons.1 h
    cases f with
    | choice | arm => cases hf
    | list | passedList =>
      cases brace with
      | false => exact deliver_shadowed _ true hstack
      | true => trivial
    | object | passedObject =>
      cases brace with
      | false => trivial
      | true => exact deliver_shadowed _ true hstack
    | record fields done current =>
      cases brace with
      | false => trivial
      | true =>
        simp only [close, not_true_eq_false, if_false]
        split
        · exact deliver_shadowed _ true hstack
        · trivial
    | tuple fields left done =>
      cases brace with
      | true => trivial
      | false =>
        simp only [close, Bool.false_eq_true, if_false]
        split
        · exact deliver_shadowed _ true hstack
        · trivial

/-! ### First bytes -/

/-- No limit holds for frames that keep nothing. -/
theorem push_shadowed {f : Frame} {mode mode' : Mode}
    (h : mode.Shadowed ((f :: stack).map Frame.shadow) mode') :
    (push f mode stack).Shadowed (.reading ⟨(f :: stack).map Frame.shadow, mode'⟩) := by
  unfold push
  split
  · exact shadowed_reading h
  · trivial

/-- A bracket opens a list that is passed over. -/
theorem openBracket_shadowed (stack : List Frame) (shape : Shape) :
    (openBracket stack shape).Shadowed (openBracket (stack.map Frame.shadow) .skipped) := by
  cases shape with
  | any | list | record => exact push_shadowed .first
  | skipped => exact ⟨_, rfl, rfl, .first⟩
  | nothing | flag | text | whole | nullable | word | variant => trivial

/-- A brace opens an object that is passed over. -/
theorem openBrace_shadowed (stack : List Frame) (shape : Shape) :
    (openBrace stack shape).Shadowed (openBrace (stack.map Frame.shadow) .skipped) := by
  cases shape with
  | any | record => exact push_shadowed (.firstKey rfl)
  | skipped => exact ⟨_, rfl, rfl, .firstKey rfl⟩
  | nothing | flag | text | whole | nullable | list | word | variant => trivial

/-- A lexeme starts alike in both. -/
theorem shadowed_of_lexeme? {b : UInt8} {l : Lexeme} (h : lexeme? b = some l) (purpose : Purpose) :
    (Mode.lexeme l purpose).Shadowed (stack.map Frame.shadow) (.lexeme l purpose.shadow) := by
  unfold lexeme? at h
  repeat' split at h
  all_goals cases h
  all_goals first | exact .text .plain _ _ _ | exact .word _ _ _ | exact .number _ _ _ _

/-- A value that begins under a shape begins under the one that accepts all, with the same byte. -/
theorem begin_shadowed (hshape : shape.Plain) (stack : List Frame) (b : UInt8) :
    (begin stack shape b).Shadowed (begin (stack.map Frame.shadow) .skipped b) := by
  fun_induction begin stack shape b with
  | case1 => exact shadowed_reading (.word _ _ (.value .nothing))
  | case2 _ _ _ ih =>
    cases hshape with
    | nullable hshape => exact ih hshape
  | case9 => exact openBracket_shadowed _ _
  | case10 => exact openBrace_shadowed _ _
  | case11 shape b _ _ _ hbracket hbrace l hl =>
    have hskipped : begin (stack.map Frame.shadow) .skipped b =
        .reading ⟨stack.map Frame.shadow, .lexeme l (.value .skipped)⟩ := by
      simp only [begin, hbracket, hbrace, if_false, hl]
    rw [hskipped]
    exact shadowed_reading (shadowed_of_lexeme? hl (.value shape))
  | case12 => trivial
  | _ => cases hshape

/-! ### Bytes between lexemes -/

/-- After an opening bracket both close the list or begin its first item. -/
theorem stepFirst_shadowed (h : ∀ f ∈ stack, f.Plain) (b : UInt8) :
    (stepFirst stack b).Shadowed (stepFirst (stack.map Frame.shadow) b) := by
  unfold stepFirst
  split
  · exact close_shadowed false h
  · split
    · exact begin_shadowed (h _ List.mem_cons_self) _ b
    · exact begin_shadowed ((h _ List.mem_cons_self).2 _ List.mem_cons_self) _ b
    · exact begin_shadowed .skipped _ b
    · trivial

/-- After a comma both wait for an item, or for a key. -/
theorem afterComma_shadowed (stack : List Frame) :
    (afterComma stack).Shadowed (afterComma (stack.map Frame.shadow)) := by
  unfold afterComma
  split
  · exact shadowed_reading (.value _)
  · exact shadowed_reading (.value _)
  · exact shadowed_reading (.value _)
  · exact shadowed_reading (.key rfl)
  · exact shadowed_reading (.key rfl)
  · exact shadowed_reading (.key rfl)
  · trivial

/-- A key begins alike in both. The first reader may keep it or pass over it. -/
theorem stepKey_shadowed (h : (stack.map Frame.shadow).head? = some .passedObject) (b : UInt8) :
    (stepKey stack b).Shadowed (stepKey (stack.map Frame.shadow) b) := by
  by_cases hb : b = 34
  · have hpassed : stepKey (stack.map Frame.shadow) b =
        .reading ⟨stack.map Frame.shadow, .lexeme (.text .plain []) .passedKey⟩ := by
      obtain ⟨rest, hrest⟩ := List.head?_eq_some_iff.1 h
      rw [hrest, stepKey, if_pos hb]
    rw [hpassed]
    unfold stepKey
    rw [if_pos hb]
    split
    · exact shadowed_reading (.text .plain [] [] .passedKey)
    · exact shadowed_reading (.text .plain [] [] .key)
  · unfold stepKey
    rw [if_neg hb]
    trivial

/-- What comes after a colon is passed over, too. -/
theorem valueShape_shadow (stack : List Frame) :
    valueShape (stack.map Frame.shadow) = .skipped := by
  cases stack with
  | nil => rfl
  | cons f stack => cases f <;> rfl

/-- After a byte between lexemes the second reader still follows the first one. -/
theorem stepBetween_shadowed {mode mode' : Mode} (h : ∀ f ∈ stack, f.Plain) (hmode : mode.Plain)
    (hfollows : mode.Shadowed (stack.map Frame.shadow) mode') (b : UInt8) :
    (stepBetween stack mode b).Shadowed (stepBetween (stack.map Frame.shadow) mode' b) := by
  unfold stepBetween
  split
  · exact shadowed_reading hfollows
  · cases hfollows with
    | value => exact begin_shadowed hmode _ b
    | first => exact stepFirst_shadowed h b
    | next =>
      simp only
      split
      · exact afterComma_shadowed stack
      split
      · exact close_shadowed false h
      split
      · exact close_shadowed true h
      · trivial
    | firstKey hobject =>
      simp only
      split
      · exact close_shadowed true h
      · exact stepKey_shadowed hobject b
    | key hobject => exact stepKey_shadowed hobject b
    | colon =>
      simp only
      split
      · rw [valueShape_shadow]
        exact shadowed_reading (.value _)
      · trivial
    | word | text | number => trivial

/-! ### Bytes inside a lexeme -/

/-- What one byte makes of a text that is kept it makes of one that is passed over, too. -/
def TextStep.Shadowed : TextStep → TextStep → Prop
  | .more part _, q => ∃ done, q = .more part.shadow done
  | .ended, q => q = .ended
  | .broken, _ => True

/-- A text goes on in both. Where the first reader puts a surrogate pair together, the second one
reads two escapes. -/
theorem stepText_shadowed (passes : Bool) (part : TextPart) (done done' : List UInt8) (b : UInt8) :
    (stepText passes part done b).Shadowed (stepText true part.shadow done' b) := by
  cases part with
  | plain =>
    simp only [stepText, TextPart.shadow]
    split
    · rfl
    split
    · exact ⟨_, rfl⟩
    split
    · trivial
    · exact ⟨_, rfl⟩
  | escaped =>
    simp only [stepText, TextPart.shadow]
    split
    · exact ⟨_, rfl⟩
    split
    · exact ⟨_, rfl⟩
    · trivial
  | unit digits =>
    simp only [stepText, TextPart.shadow]
    split
    · exact ⟨_, rfl⟩
    split
    · trivial
    split
    · exact ⟨_, rfl⟩
    · unfold endUnit
      split
      · trivial
      split
      · exact ⟨_, rfl⟩
      · exact ⟨_, rfl⟩
  | afterHigh high =>
    simp only [stepText, TextPart.shadow]
    by_cases hb : b = 92
    · subst hb
      exact ⟨_, rfl⟩
    · rw [if_neg hb]
      trivial
  | afterHighMark high =>
    simp only [stepText, TextPart.shadow]
    split
    · exact ⟨_, rfl⟩
    · trivial
  | lowUnit high digits =>
    simp only [stepText, TextPart.shadow]
    split
    · exact ⟨_, rfl⟩
    split
    · trivial
    split
    · exact ⟨_, rfl⟩
    · trivial

/-- A number ends in both if it has a value in the first. -/
theorem endNumber_shadowed (purpose : Purpose) (done done' : List UInt8)
    (h : ∀ f ∈ stack, f.Plain) :
    (endNumber purpose done stack).Shadowed
      (endNumber purpose.shadow done' (stack.map Frame.shadow)) := by
  rw [endNumber, endNumber, if_pos purpose.passes_shadow]
  repeat' split
  · exact complete_shadowed _ _ _ _ h
  · exact complete_shadowed _ _ _ _ h
  · trivial

end

/-! ### Steps -/

/-- A reader that passes over what another one reads still does after a byte. -/
theorem step_shadowed {s t : State} (hs : s.Plain) (h : s.Shadowed t) (b : UInt8) :
    (s.step b).Shadowed (t.step b) := by
  obtain ⟨stack, mode⟩ := s
  obtain ⟨stack', mode'⟩ := t
  obtain ⟨hinside, hmode⟩ := hs
  obtain ⟨rfl, hfollows⟩ := h
  have hstack := hinside.plain
  cases mode with
  | value | first | next | firstKey | key | colon =>
    have hbetween := stepBetween_shadowed hstack hmode hfollows b
    cases hfollows
    exact hbetween
  | lexeme l purpose =>
    cases hfollows with
    | word left value =>
      cases left with
      | nil => exact complete_shadowed _ _ _ _ hstack
      | cons c left =>
        simp only [State.step]
        split
        · trivial
        split
        · exact complete_shadowed _ _ _ _ hstack
        · exact shadowed_reading (.word _ _ _)
    | text part done done' =>
      have htext := stepText_shadowed purpose.passes part done done' b
      simp only [State.step, Purpose.passes_shadow, if_true]
      cases hstep : stepText purpose.passes part done b with
      | more next more =>
        rw [hstep] at htext
        obtain ⟨more', hmore'⟩ := htext
        rw [hmore']
        exact shadowed_reading (.text next more more' purpose)
      | ended =>
        rw [hstep] at htext
        have hended : stepText true part.shadow done' b = .ended := htext
        rw [hended]
        simp only
        repeat' split
        · exact complete_shadowed _ _ _ _ hstack
        · exact complete_shadowed _ _ _ _ hstack
        · trivial
      | broken => trivial
    | number part done done' =>
      simp only [State.step]
      cases part.next? b with
      | some next => exact shadowed_reading (.number next _ _ purpose)
      | none =>
        simp only
        split
        · trivial
        · have hend := endNumber_shadowed purpose done done' hstack
          have hplain := endNumber_plain purpose done hinside
          cases hp : endNumber purpose done stack with
          | reading u =>
            rw [hp] at hend hplain
            obtain ⟨v, hv, huv⟩ := hend
            obtain ⟨ustack, umode⟩ := u
            obtain ⟨vstack, vmode⟩ := v
            obtain ⟨rfl, hfollows⟩ := huv
            rw [hv]
            exact stepBetween_shadowed hplain.inside.plain hplain.mode hfollows b
          | finished value used =>
            rw [hp] at hend
            have hfinished : endNumber purpose.shadow done' (stack.map Frame.shadow) =
              .finished .null used := hend
            rw [hfinished]
            rfl
          | malformed | unfit => trivial

/-! ## Reading on -/

namespace State

variable {s t u : State} {bs rest : List UInt8} {value : Json}

/-- While a reader goes on, so does one that passes over what it reads. -/
theorem feed_shadowed (hs : s.Plain) (h : s.Shadowed t) (hfeed : s.feed bs = some u) :
    ∃ v, t.feed bs = some v ∧ u.Shadowed v := by
  induction bs generalizing s t with
  | nil =>
    cases hfeed
    exact ⟨t, rfl, h⟩
  | cons b bs ih =>
    obtain ⟨s', hstep, hfeed⟩ := feed_cons_eq_some hfeed
    have hplain := step_plain hs b
    have hfollows := step_shadowed hs h b
    rw [hstep] at hplain hfollows
    obtain ⟨t', ht', hshadow⟩ := hfollows
    obtain ⟨v, hv, huv⟩ := ih hplain hshadow hfeed
    refine ⟨v, ?_, huv⟩
    rw [feed, ht']
    exact hv

/-- Where a value is found, one is passed over. -/
theorem read_shadowed (hs : s.Plain) (h : s.Shadowed t) (hread : s.read bs = .found value rest) :
    t.read bs = .found .null rest := by
  induction bs generalizing s t with
  | nil => exact absurd hread (atEnd_ne_found hs)
  | cons b bs ih =>
    have hplain := step_plain hs b
    have hfollows := step_shadowed hs h b
    rw [read] at hread
    cases hstep : s.step b with
    | reading s' =>
      rw [hstep] at hread hplain hfollows
      obtain ⟨t', ht', hshadow⟩ := hfollows
      rw [read, ht']
      exact ih hplain hshadow hread
    | finished found used =>
      rw [hstep] at hread hfollows
      have hfinished : t.step b = .finished .null used := hfollows
      rw [read, hfinished]
      cases used with
      | true =>
        cases hread
        rfl
      | false =>
        cases hread
        rfl
    | malformed | unfit =>
      rw [hstep] at hread
      cases hread

end State

end Json.Reader

end StorageControl
