/-
# Any limit on nesting

A reader looks at the two innermost of the frames that are open, and at how many there are. So it can
be run with its eyes on these two, and with another limit than its own on how many may be open: with
its own limit it is the same reader.
-/
import Mathlib.Data.List.TakeDrop
import StorageControl.Proofs.Reader

namespace StorageControl

namespace Json.Reader

/-! ## A limit on frames -/

/-- The frame is of something that is passed over. Such frames do not count when they are opened. -/
def Frame.isPassed : Frame → Bool
  | .passedList | .passedObject => true
  | _ => false

/-- What comes of a byte when `below` is open further out than the `n` frames that were looked at.
If a frame has been opened it must be within the limit. -/
def Progress.within (limit n : Nat) (below : List Frame) : Progress → Progress
  | .reading s =>
    if n < s.stack.length ∧ limit ≤ n + below.length ∧ ¬ s.stack.head?.any Frame.isPassed then
      .malformed
    else .reading ⟨s.stack ++ below, s.mode⟩
  | p => p

/-- One more byte, with a limit on how many frames may be open. -/
def State.stepWithin (limit : Nat) (s : State) (b : UInt8) : Progress :=
  (State.step ⟨s.stack.take 2, s.mode⟩ b).within limit (s.stack.take 2).length (s.stack.drop 2)

/-- Reads on over some bytes, with a limit on how many frames may be open. -/
def State.readWithin (limit : Nat) (s : State) : List UInt8 → Reading
  | [] => s.atEnd
  | b :: rest =>
    match s.stepWithin limit b with
    | .reading s => s.readWithin limit rest
    | .finished value true => .found value rest
    | .finished value false => .found value (b :: rest)
    | .malformed => .malformed
    | .unfit => .unfit

/-! ## What is open further out has no part in a step -/

section

variable {limit n : Nat} {top below stack : List Frame} {f : Frame} {mode : Mode}

/-- A step that opens no frame is within every limit. -/
theorem within_reading (hn : stack.length ≤ n) :
    (Progress.reading ⟨stack, mode⟩).within limit n below = .reading ⟨stack ++ below, mode⟩ :=
  if_neg fun h => absurd h.1 (Nat.not_lt.2 hn)

/-- A frame that is opened must be within the limit. -/
theorem within_push (htop : top.length < depthLimit) (hf : f.isPassed = false) :
    (push f mode top).within limit top.length below =
      if (top ++ below).length < limit then .reading ⟨f :: (top ++ below), mode⟩
      else .malformed := by
  rw [push, if_pos htop, List.length_append]
  by_cases h : top.length + below.length < limit
  · rw [if_pos h]
    exact if_neg fun hover => absurd h (Nat.not_lt.2 hover.2.1)
  · rw [if_neg h]
    refine if_pos ⟨?_, Nat.not_lt.1 h, ?_⟩
    · rw [List.length_cons]
      exact Nat.lt_succ_self _
    · simp [hf]

/-- A frame of something that is passed over may always be opened. -/
theorem within_passed (hf : f.isPassed = true) :
    (Progress.reading ⟨f :: top, mode⟩).within limit n below =
      .reading ⟨f :: (top ++ below), mode⟩ :=
  if_neg fun hover => hover.2.2 (by simp [hf])

/-- Where a value goes is up to the innermost frame. -/
theorem deliver_within (value : Json) (used : Bool) (htop : top = [] → below = [])
    (hn : top.length ≤ n) :
    (deliver value used top).within limit n below = deliver value used (top ++ below) := by
  cases top with
  | nil =>
    rw [htop rfl]
    rfl
  | cons f top =>
    cases f with
    | list | object | arm | passedList | passedObject => exact within_reading hn
    | tuple => exact within_reading hn
    | record _ _ current => cases current <;> exact within_reading hn
    | choice arms bare =>
      simp only [List.cons_append, deliver]
      repeat' split
      · exact within_reading hn
      all_goals rfl

theorem deliverKey_within (key : String) (htop : top = [] → below = []) (hn : top.length ≤ n) :
    (deliverKey key top).within limit n below = deliverKey key (top ++ below) := by
  cases top with
  | nil =>
    rw [htop rfl]
    exact within_reading hn
  | cons f top =>
    cases f with
    | list | object | arm | passedList | passedObject | tuple | choice => exact within_reading hn
    | record fields done current =>
      simp only [List.cons_append, deliverKey]
      repeat' split
      · exact within_reading hn
      · rfl
      · exact within_reading hn

theorem complete_within (purpose : Purpose) (value : Json) (used : Bool)
    (htop : top = [] → below = []) (hn : top.length ≤ n) :
    (complete purpose value used top).within limit n below =
      complete purpose value used (top ++ below) := by
  unfold complete
  repeat' split
  · exact deliver_within _ _ htop hn
  · rfl
  · exact deliverKey_within _ htop hn
  · rfl
  · exact within_reading hn

theorem endNumber_within (purpose : Purpose) (done : List UInt8) (htop : top = [] → below = [])
    (hn : top.length ≤ n) :
    (endNumber purpose done top).within limit n below = endNumber purpose done (top ++ below) := by
  unfold endNumber
  repeat' split
  · exact complete_within _ _ _ htop hn
  · exact complete_within _ _ _ htop hn
  · rfl

/-- Closing a frame needs the one around it. -/
theorem close_within (brace : Bool) (htop : top.length ≤ 1 → below = []) (hn : top.length ≤ n) :
    (close brace top).within limit n below = close brace (top ++ below) := by
  cases top with
  | nil =>
    rw [htop (Nat.zero_le _)]
    rfl
  | cons f top =>
    have htop' : top = [] → below = [] := by
      rintro rfl
      exact htop (Nat.le_refl _)
    have hn' : top.length ≤ n := Nat.le_of_succ_le hn
    cases f with
    | choice => rfl
    | list | object | record | tuple | arm | passedList | passedObject =>
      simp only [List.cons_append, close]
      repeat' split
      all_goals first | rfl | exact deliver_within _ _ htop' hn'

/-! ## Its own limit -/

/-- With its own limit a reader opens what it opens. -/
theorem push_within (htop : top.length < depthLimit) (hf : f.isPassed = false) :
    (push f mode top).within depthLimit top.length below = push f mode (top ++ below) := by
  rw [within_push htop hf, push]

theorem openBracket_within (shape : Shape) (htop : top.length < depthLimit) :
    (openBracket top shape).within depthLimit top.length below =
      openBracket (top ++ below) shape := by
  cases shape with
  | any | list | record => exact push_within htop rfl
  | skipped => exact within_passed rfl
  | nothing | flag | text | whole | nullable | word | variant => rfl

theorem openBrace_within (shape : Shape) (htop : top.length < depthLimit) :
    (openBrace top shape).within depthLimit top.length below = openBrace (top ++ below) shape := by
  cases shape with
  | any | record => exact push_within htop rfl
  | skipped => exact within_passed rfl
  | list | nothing | flag | text | whole | nullable | word | variant => rfl

/-- Most values begin with a bracket, a brace or a lexeme. -/
theorem begin_eq {shape : Shape} (hnull : ∀ s, shape ≠ .nullable s) (hword : ∀ w, shape ≠ .word w)
    (hvariant : ∀ a, shape ≠ .variant a) (stack : List Frame) (b : UInt8) :
    begin stack shape b =
      if b = 91 then openBracket stack shape
      else if b = 123 then openBrace stack shape
      else
        match lexeme? b with
        | some l => .reading ⟨stack, .lexeme l (.value shape)⟩
        | none => .malformed := by
  cases shape with
  | nullable s => exact absurd rfl (hnull s)
  | word w => exact absurd rfl (hword w)
  | variant a => exact absurd rfl (hvariant a)
  | any | skipped | nothing | flag | text | whole | list | record => rfl

/-- How a value begins is up to its shape, and to how many frames are open. -/
theorem begin_within (shape : Shape) (b : UInt8) (htop : top.length < depthLimit) :
    (begin top shape b).within depthLimit top.length below = begin (top ++ below) shape b := by
  fun_induction begin top shape b with
  | case1 => exact within_reading (Nat.le_refl _)
  | case2 _ _ hb ih => rw [ih, begin, if_neg hb]
  | case3 | case6 => exact within_reading (Nat.le_refl _)
  | case4 | case7 => exact push_within htop rfl
  | case5 _ _ hquote hbrace | case8 _ _ hquote hbrace =>
    rw [begin, if_neg hquote, if_neg hbrace]
    rfl
  | case9 _ hnull hword hvariant =>
    rw [begin_eq hnull hword hvariant, if_pos rfl, openBracket_within _ htop]
  | case10 _ hnull hword hvariant =>
    rw [begin_eq hnull hword hvariant, if_neg (by decide), if_pos rfl, openBrace_within _ htop]
  | case11 _ _ hnull hword hvariant hbracket hbrace l hl =>
    rw [begin_eq hnull hword hvariant, if_neg hbracket, if_neg hbrace, hl]
    exact within_reading (Nat.le_refl _)
  | case12 _ _ hnull hword hvariant hbracket hbrace hl =>
    rw [begin_eq hnull hword hvariant, if_neg hbracket, if_neg hbrace, hl]
    rfl

theorem stepFirst_within (b : UInt8) (h : top.length ≤ 1 → below = [])
    (htop : top.length < depthLimit) :
    (stepFirst top b).within depthLimit top.length below = stepFirst (top ++ below) b := by
  unfold stepFirst
  split
  · exact close_within _ h (Nat.le_refl _)
  · cases top with
    | nil => rw [h (Nat.zero_le _)]; rfl
    | cons f top =>
      cases f with
      | list | passedList => exact begin_within _ _ htop
      | tuple _ left _ =>
        cases left with
        | nil => rfl
        | cons => exact begin_within _ _ htop
      | object | record | choice | arm | passedObject => rfl

theorem afterComma_within (h : top = [] → below = []) (hn : top.length ≤ n) :
    (afterComma top).within limit n below = afterComma (top ++ below) := by
  cases top with
  | nil => rw [h rfl]; rfl
  | cons f top =>
    cases f with
    | list | object | record | passedList | passedObject => exact within_reading hn
    | tuple _ left _ =>
      cases left with
      | nil => rfl
      | cons => exact within_reading hn
    | choice | arm => rfl

theorem stepKey_within (b : UInt8) (h : top = [] → below = []) (hn : top.length ≤ n) :
    (stepKey top b).within limit n below = stepKey (top ++ below) b := by
  unfold stepKey
  split
  · cases top with
    | nil =>
      rw [h rfl]
      exact within_reading hn
    | cons f top => cases f <;> exact within_reading hn
  · rfl

/-- The shape of a value is up to the innermost frame. -/
theorem valueShape_append (h : top = [] → below = []) :
    valueShape (top ++ below) = valueShape top := by
  cases top with
  | nil => rw [h rfl]; rfl
  | cons f top =>
    cases f with
    | record _ _ current => cases current <;> rfl
    | list | object | tuple | choice | arm | passedList | passedObject => rfl

theorem stepBetween_within (mode : Mode) (b : UInt8) (h : top.length ≤ 1 → below = [])
    (htop : top.length < depthLimit) :
    (stepBetween top mode b).within depthLimit top.length below =
      stepBetween (top ++ below) mode b := by
  have hnil : top = [] → below = [] := by
    rintro rfl
    exact h (Nat.zero_le _)
  unfold stepBetween
  split
  · exact within_reading (Nat.le_refl _)
  · cases mode with
    | value => exact begin_within _ _ htop
    | first => exact stepFirst_within _ h htop
    | next =>
      simp only
      repeat' split
      · exact afterComma_within hnil (Nat.le_refl _)
      · exact close_within _ h (Nat.le_refl _)
      · exact close_within _ h (Nat.le_refl _)
      · rfl
    | firstKey =>
      simp only
      split
      · exact close_within _ h (Nat.le_refl _)
      · exact stepKey_within _ hnil (Nat.le_refl _)
    | key => exact stepKey_within _ hnil (Nat.le_refl _)
    | colon =>
      simp only [valueShape_append hnil]
      split
      · exact within_reading (Nat.le_refl _)
      · rfl
    | lexeme => rfl

/-- A value that is put in its place leaves as many frames open as there were. -/
theorem length_of_deliver {value : Json} {used : Bool} {s : State}
    (h : deliver value used stack = .reading s) : s.stack.length = stack.length := by
  cases stack with
  | nil => cases h
  | cons f stack =>
    cases f with
    | record _ _ current => cases current <;> cases h <;> rfl
    | choice arms bare =>
      simp only [deliver] at h
      repeat' split at h
      all_goals cases h
      rfl
    | list | object | tuple | arm | passedList | passedObject =>
      cases h
      rfl

theorem length_of_deliverKey {key : String} {s : State}
    (h : deliverKey key stack = .reading s) : s.stack.length = stack.length := by
  unfold deliverKey at h
  repeat' split at h
  all_goals cases h
  all_goals rfl

/-- The end of a number leaves as many frames open as there were. -/
theorem length_of_endNumber {purpose : Purpose} {done : List UInt8} {s : State}
    (h : endNumber purpose done stack = .reading s) : s.stack.length = stack.length := by
  have hcomplete {value : Json} (h : complete purpose value false stack = .reading s) :
      s.stack.length = stack.length := by
    unfold complete at h
    repeat' split at h
    · exact length_of_deliver h
    · cases h
    · exact length_of_deliverKey h
    · cases h
    · cases h
      rfl
  unfold endNumber at h
  repeat' split at h
  · exact hcomplete h
  · exact hcomplete h
  · cases h

/-- With its own limit a reader that looks at some frames makes the step that it makes with all of
them, as long as it looks at two or at all there are. -/
theorem step_within (mode : Mode) (b : UInt8) (h : top.length ≤ 1 → below = [])
    (htop : top.length < depthLimit) :
    (State.step ⟨top, mode⟩ b).within depthLimit top.length below =
      State.step ⟨top ++ below, mode⟩ b := by
  have hnil : top = [] → below = [] := by
    rintro rfl
    exact h (Nat.zero_le _)
  cases mode with
  | value | first | next | firstKey | key | colon => exact stepBetween_within _ b h htop
  | lexeme l purpose =>
    cases l with
    | word left value =>
      cases left with
      | nil => exact complete_within _ _ _ hnil (Nat.le_refl _)
      | cons c left =>
        simp only [State.step]
        repeat' split
        · rfl
        · exact complete_within _ _ _ hnil (Nat.le_refl _)
        · exact within_reading (Nat.le_refl _)
    | text part done =>
      simp only [State.step]
      repeat' split
      · exact within_reading (Nat.le_refl _)
      · rfl
      · exact complete_within _ _ _ hnil (Nat.le_refl _)
      · exact complete_within _ _ _ hnil (Nat.le_refl _)
      · rfl
    | number part done =>
      simp only [State.step]
      split
      · exact within_reading (Nat.le_refl _)
      split
      · rfl
      -- The number ends before the byte, which is then read on its own.
      have hwhole : (endNumber purpose done top).within depthLimit top.length below =
          endNumber purpose done (top ++ below) := endNumber_within _ _ hnil (Nat.le_refl _)
      rw [← hwhole]
      cases hend : endNumber purpose done top with
      | finished | malformed | unfit => rfl
      | reading s =>
        have hlength := length_of_endNumber hend
        rw [within_reading (Nat.le_of_eq hlength)]
        simp only
        rw [← hlength]
        exact stepBetween_within _ b (hlength ▸ h) (hlength ▸ htop)

end

/-- With its own limit it is the same reader. -/
theorem stepWithin_depthLimit (s : State) (b : UInt8) : s.stepWithin depthLimit b = s.step b := by
  have hbelow : (s.stack.take 2).length ≤ 1 → s.stack.drop 2 = [] := by
    rw [List.length_take, List.drop_eq_nil_iff]
    omega
  have htop : (s.stack.take 2).length < depthLimit := by
    rw [List.length_take, depthLimit]
    omega
  rw [State.stepWithin, step_within s.mode b hbelow htop, List.take_append_drop]

/-- With its own limit a reader reads what it reads. -/
theorem readWithin_depthLimit (s : State) (bs : List UInt8) :
    s.readWithin depthLimit bs = s.read bs := by
  induction bs generalizing s with
  | nil => rfl
  | cons b bs ih =>
    rw [State.readWithin, State.read, stepWithin_depthLimit]
    cases s.step b with
    | reading t => exact ih t
    | finished value used => cases used <;> rfl
    | malformed | unfit => rfl

/-! ## Steps that open nothing -/

/-- The byte opens no frame beyond `n`, and a value that is finished is finished by it. -/
def Progress.Bounded (n : Nat) : Progress → Prop
  | .reading s => s.stack.length ≤ n
  | .finished _ used => used = true
  | .malformed => False
  | .unfit => True

/-- The limit has no part in a step that opens nothing. -/
theorem stepWithin_eq_step {limit : Nat} {s : State} {b : UInt8}
    (h : (s.step b).Bounded s.stack.length) : s.stepWithin limit b = s.step b := by
  have hlength : (s.stack.take 2).length + (s.stack.drop 2).length = s.stack.length := by
    rw [← List.length_append, List.take_append_drop]
  rw [← stepWithin_depthLimit] at h ⊢
  unfold State.stepWithin at h ⊢
  cases hstep : State.step ⟨s.stack.take 2, s.mode⟩ b with
  | finished | malformed | unfit => rfl
  | reading t =>
    rw [hstep, Progress.within] at h
    split at h
    · cases h
    · -- Nothing has been opened, so that neither limit matters.
      have ht : t.stack.length ≤ (s.stack.take 2).length := by
        simp only [Progress.Bounded, List.length_append] at h
        omega
      rw [within_reading ht, within_reading ht]

/-- What becomes of a reader after a byte, when more bytes come. -/
def Progress.resume (limit : Nat) : Progress → List UInt8 → Reading
  | .reading s, rest => s.readWithin limit rest
  | .finished value _, rest => .found value rest
  | .malformed, _ => .malformed
  | .unfit, _ => .unfit

/-- A step that opens nothing is made under every limit. -/
theorem readWithin_cons {limit : Nat} {s : State} {b : UInt8}
    (h : (s.step b).Bounded s.stack.length) (rest : List UInt8) :
    s.readWithin limit (b :: rest) = (s.step b).resume limit rest := by
  rw [State.readWithin, stepWithin_eq_step h]
  cases hstep : s.step b with
  | reading | malformed | unfit => rfl
  | finished value used =>
    rw [hstep] at h
    obtain rfl : used = true := h
    rfl

theorem readWithin_step {limit : Nat} {s t : State} {b : UInt8} (h : s.step b = .reading t)
    (hlength : t.stack.length ≤ s.stack.length) (rest : List UInt8) :
    s.readWithin limit (b :: rest) = t.readWithin limit rest := by
  rw [readWithin_cons (by rw [h]; exact hlength), h, Progress.resume]

/-- A frame is opened if it is within the limit. -/
theorem readWithin_push {limit : Nat} {s : State} {b : UInt8} {f : Frame} {mode : Mode}
    (h : State.step ⟨s.stack.take 2, s.mode⟩ b = push f mode (s.stack.take 2))
    (hf : f.isPassed = false) (hlimit : s.stack.length < limit) (rest : List UInt8) :
    s.readWithin limit (b :: rest) =
      State.readWithin limit ⟨f :: s.stack, mode⟩ rest := by
  have htop : (s.stack.take 2).length < depthLimit := by
    rw [List.length_take, depthLimit]
    omega
  rw [State.readWithin, State.stepWithin, h, within_push htop hf, List.take_append_drop,
    if_pos hlimit]

/-- A frame of something that is passed over is opened in any case. -/
theorem readWithin_passed {limit : Nat} {s : State} {b : UInt8} {f : Frame} {mode : Mode}
    (h : State.step ⟨s.stack.take 2, s.mode⟩ b = .reading ⟨f :: s.stack.take 2, mode⟩)
    (hf : f.isPassed = true) (rest : List UInt8) :
    s.readWithin limit (b :: rest) = State.readWithin limit ⟨f :: s.stack, mode⟩ rest := by
  rw [State.readWithin, State.stepWithin, h, within_passed hf, List.take_append_drop]

end Json.Reader

/-- Reads a value of a shape off the front of some bytes, with a limit on how many lists and objects
may be open in it. -/
def Json.readWithin (limit : Nat) (shape : Shape) (bs : List UInt8) : Json.Reader.Reading :=
  (Json.Reader.start shape).readWithin limit bs

/-- Reading with the limit that the reader has. -/
theorem Json.readWithin_depthLimit (shape : Shape) (bs : List UInt8) :
    Json.readWithin Json.Reader.depthLimit shape bs = Json.readAs shape bs :=
  Json.Reader.readWithin_depthLimit _ bs

end StorageControl
