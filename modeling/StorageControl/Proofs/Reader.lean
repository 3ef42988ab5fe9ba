/-
# Values are read off the front

What comes after a value has no part in reading it: the bytes before it hold the same value when
nothing comes after them. Blanks before a value have no part in it either.
-/
import Mathlib.Data.List.TakeWhile
import StorageControl.Json.Codec

namespace StorageControl

namespace Json.Reader

/-! ## What one byte makes of a reader -/

/-- No word is waited for that is complete. -/
def Mode.Pending : Mode → Prop
  | .lexeme (.word [] _) _ => False
  | _ => True

/-- A reader that goes on does not wait for a complete word. A value that is finished is finished by
a byte of its own or by a later one, as `used` says. -/
def Progress.Sound (used : Bool) : Progress → Prop
  | .reading s => s.mode.Pending
  | .finished _ u => u = used
  | .malformed | .unfit => True

section

variable {used : Bool}

@[simp] theorem sound_reading {s : State} : (Progress.reading s).Sound used ↔ s.mode.Pending :=
  Iff.rfl

@[simp] theorem sound_finished {value : Json} {u : Bool} :
    (Progress.finished value u).Sound used ↔ u = used := Iff.rfl

@[simp] theorem sound_malformed : Progress.malformed.Sound used := trivial

@[simp] theorem sound_unfit : Progress.unfit.Sound used := trivial

end

/-! ### Finished parts -/

/-- A value that is delivered finishes the reading or is followed by the next item. -/
@[simp] theorem deliver_sound (value : Json) (used : Bool) (stack : List Frame) :
    (deliver value used stack).Sound used := by
  unfold deliver
  repeat' split
  all_goals simp [Mode.Pending]

/-- A key is followed by a colon, whatever the frame makes of it. -/
@[simp] theorem deliverKey_sound (key : String) (used : Bool) (stack : List Frame) :
    (deliverKey key stack).Sound used := by
  unfold deliverKey
  repeat' split
  all_goals simp [Mode.Pending]

/-- A lexeme that is complete is delivered, or fits nowhere. -/
@[simp] theorem complete_sound (purpose : Purpose) (value : Json) (used : Bool)
    (stack : List Frame) : (complete purpose value used stack).Sound used := by
  unfold complete
  repeat' split
  all_goals simp [Mode.Pending]

/-- A closing bracket is a byte of the value that it closes. -/
@[simp] theorem close_sound (brace : Bool) (stack : List Frame) :
    (close brace stack).Sound true := by
  unfold close
  repeat' split
  all_goals simp

/-! ### First bytes -/

/-- One more frame is opened only if there is room for it. -/
@[simp] theorem sound_push {frame : Frame} {mode : Mode} {stack : List Frame} {used : Bool} :
    (push frame mode stack).Sound used ↔ (stack.length < depthLimit → mode.Pending) := by
  unfold push
  split
  · rename_i h
    simp [h]
  · rename_i h
    simp [h]

/-- A bracket opens a list or does not fit. -/
@[simp] theorem openBracket_sound (stack : List Frame) (shape : Shape) (used : Bool) :
    (openBracket stack shape).Sound used := by
  cases shape <;> simp [openBracket, Mode.Pending]

/-- A brace opens an object or does not fit. -/
@[simp] theorem openBrace_sound (stack : List Frame) (shape : Shape) (used : Bool) :
    (openBrace stack shape).Sound used := by
  cases shape <;> simp [openBrace, Mode.Pending]

/-- A lexeme that starts is not complete. -/
theorem pending_of_lexeme? {b : UInt8} {l : Lexeme} (h : lexeme? b = some l)
    (purpose : Purpose) : (Mode.lexeme l purpose).Pending := by
  unfold lexeme? at h
  repeat' split at h
  all_goals cases h
  all_goals trivial

/-- The first byte of a value opens a frame or starts a lexeme, and finishes nothing. -/
@[simp] theorem begin_sound (stack : List Frame) (shape : Shape) (b : UInt8) (used : Bool) :
    (begin stack shape b).Sound used := by
  fun_induction begin stack shape b with
  | case11 _ _ _ _ _ _ _ _ hl => simpa using pending_of_lexeme? hl _
  | _ => simp_all [Mode.Pending]

/-! ### Bytes between lexemes -/

/-- After an opening bracket an item comes, or the list is closed by a byte of its own. -/
@[simp] theorem stepFirst_sound (stack : List Frame) (b : UInt8) :
    (stepFirst stack b).Sound true := by
  unfold stepFirst
  repeat' split
  all_goals simp

@[simp] theorem afterComma_sound (stack : List Frame) (used : Bool) :
    (afterComma stack).Sound used := by
  unfold afterComma
  repeat' split
  all_goals simp [Mode.Pending]

/-- A key begins with a quotation mark, or something is wrong. -/
@[simp] theorem stepKey_sound (stack : List Frame) (b : UInt8) (used : Bool) :
    (stepKey stack b).Sound used := by
  unfold stepKey
  repeat' split
  all_goals simp [Mode.Pending]

/-- A byte between lexemes finishes a value only by closing it. -/
theorem stepBetween_sound (stack : List Frame) {mode : Mode} (h : mode.Pending) (b : UInt8) :
    (stepBetween stack mode b).Sound true := by
  unfold stepBetween
  repeat' split
  all_goals simp_all [Mode.Pending]

/-- A number is finished by a byte after it, which it does not use. -/
theorem endNumber_sound (purpose : Purpose) (done : List UInt8) (stack : List Frame) :
    (endNumber purpose done stack).Sound false := by
  unfold endNumber
  repeat' split
  all_goals simp

/-! ## What comes after a value -/

/-- A number that ends before a byte is also finished when no byte comes. -/
theorem step_number_sound {s : State} {part : NumberPart} {done : List UInt8} {purpose : Purpose}
    (hmode : s.mode = .lexeme (.number part done) purpose) (b : UInt8) :
    (s.step b).Sound true ∨
      ∃ value, s.step b = .finished value false ∧ s.atEnd = .found value [] := by
  simp only [State.step, State.atEnd, hmode]
  cases part.next? b with
  | some part => exact .inl trivial
  | none =>
    by_cases hend : ¬ part.mayEnd ∨ part = .zero ∧ Decimal.isDigit b
    · simp only [if_pos hend]
      exact .inl trivial
    · have hmay : part.mayEnd = true := by simp_all
      simp only [if_neg hend, if_pos hmay]
      have hsound := endNumber_sound purpose done s.stack
      cases hp : endNumber purpose done s.stack with
      | reading t =>
        rw [hp] at hsound
        exact .inl (stepBetween_sound t.stack hsound b)
      | finished value used =>
        rw [hp] at hsound
        obtain rfl : used = false := hsound
        exact .inr ⟨value, rfl, rfl⟩
      | malformed | unfit => exact .inl trivial

/-- A byte makes no value finished that it is not part of, unless the value is also finished when
no byte comes. -/
theorem step_sound {s : State} (h : s.mode.Pending) (b : UInt8) :
    (s.step b).Sound true ∨
      ∃ value, s.step b = .finished value false ∧ s.atEnd = .found value [] := by
  cases hmode : s.mode with
  | value | first | next | firstKey | key | colon =>
    rw [hmode] at h
    simp only [State.step, hmode]
    exact .inl (stepBetween_sound s.stack h b)
  | lexeme l purpose =>
    rw [hmode] at h
    cases l with
    | number part done => exact step_number_sound hmode b
    | word left value =>
      cases left with
      | nil => cases h
      | cons c left =>
        simp only [State.step, hmode]
        left
        repeat' split
        all_goals simp_all [Mode.Pending]
    | text part done =>
      simp only [State.step, hmode]
      left
      repeat' split
      all_goals simp [Mode.Pending]

/-- What is found at the end is found with nothing left. -/
theorem rest_of_atEnd {s : State} {value : Json} {rest : List UInt8}
    (h : s.atEnd = .found value rest) : rest = [] := by
  unfold State.atEnd at h
  repeat' split at h
  all_goals cases h
  all_goals rfl

/-- The bytes before what is left hold the same value on their own. -/
theorem exists_append_of_read {s : State} (hs : s.mode.Pending) {bs rest : List UInt8}
    {value : Json} (h : s.read bs = .found value rest) :
    ∃ used, bs = used ++ rest ∧ s.read used = .found value [] := by
  -- By induction on the bytes: a byte is used unless the value is finished without it.
  induction bs generalizing s with
  | nil =>
    obtain rfl := rest_of_atEnd h
    exact ⟨[], rfl, h⟩
  | cons b bs ih =>
    rw [State.read] at h
    rcases step_sound hs b with hsound | ⟨found, hstep, hatEnd⟩
    · cases hstep : s.step b with
      | reading t =>
        rw [hstep] at h hsound
        obtain ⟨used, rfl, hread⟩ := ih hsound h
        refine ⟨b :: used, rfl, ?_⟩
        rw [State.read, hstep]
        exact hread
      | finished found u =>
        rw [hstep] at h hsound
        obtain rfl : u = true := hsound
        cases h
        refine ⟨[b], rfl, ?_⟩
        rw [State.read, hstep]
      | malformed | unfit =>
        rw [hstep] at h
        cases h
    · rw [hstep] at h
      cases h
      exact ⟨[], rfl, hatEnd⟩

/-! ## Blanks before a value -/

/-- Blanks before a value are passed over. -/
theorem read_start_append {shape : Shape} {blanks : List UInt8}
    (h : ∀ b ∈ blanks, isSpace b = true) (bs : List UInt8) :
    (start shape).read (blanks ++ bs) = (start shape).read bs := by
  induction blanks with
  | nil => rfl
  | cons b blanks ih =>
    have hstep : (start shape).step b = .reading (start shape) := by
      simp [State.step, start, stepBetween, h b List.mem_cons_self]
    rw [List.cons_append, State.read, hstep]
    exact ih fun c hc => h c (List.mem_cons_of_mem _ hc)

end Json.Reader

/-! ## Values of a type -/

open Json.Reader (isSpace)

/-- A value is read off the front of some bytes when they begin, after blanks, with a text that
holds it. -/
theorem Codec.exists_text_of_read {α : Type} {c : Codec α} {bs rest : List UInt8} {a : α}
    (h : c.read bs = .found a rest) :
    ∃ blanks text, bs = blanks ++ text ++ rest ∧ (∀ b ∈ blanks, isSpace b = true) ∧
      (∀ b ∈ text.head?, isSpace b = false) ∧ c.read text = .found a [] := by
  unfold read Json.readAs at h
  cases hread : (Json.Reader.start c.shape).read bs with
  | found value left =>
    rw [hread] at h
    have hstart : (Json.Reader.start c.shape).mode.Pending := trivial
    obtain ⟨used, rfl, hused⟩ := Json.Reader.exists_append_of_read hstart hread
    have hblanks : ∀ b ∈ used.takeWhile isSpace, isSpace b = true := by
      intro b hb
      exact List.mem_takeWhile_imp hb
    rw [← List.takeWhile_append_dropWhile (p := isSpace) (l := used),
      Json.Reader.read_start_append hblanks] at hused
    cases hdecode : c.decode value with
    | none =>
      simp only [hdecode] at h
      cases h
    | some found =>
      simp only [hdecode] at h
      cases h
      refine ⟨used.takeWhile isSpace, used.dropWhile isSpace, ?_, hblanks, ?_, ?_⟩
      · rw [List.takeWhile_append_dropWhile]
      · intro b hb
        have hhead := List.head?_dropWhile_not isSpace used
        rw [hb] at hhead
        exact hhead
      · simp only [read, Json.readAs, hused, hdecode]
  | truncated | malformed | unfit =>
    rw [hread] at h
    cases h

end StorageControl
