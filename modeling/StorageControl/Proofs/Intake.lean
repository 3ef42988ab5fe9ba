/-
# Receiving ends, and how

A client that receives a response reads until the bytes so far hold one, cannot become one, or are
too many; every read gets at least one byte, so that there is at most one read more than the bound
allows bytes. While the bytes are blank, or the beginning of a value, it reads on, unless it notices
that they are cut off, which it may do inside a number. Then it gives up a response that would have
been complete later.
-/
import StorageControl.Proofs.Framing
import StorageControl.Proofs.Shadow

namespace StorageControl

/-! ## Unfinished values -/

/-- The bytes are blank, or no value stands at their front, but one would with more of them. -/
def Json.Unfinished (bs : List UInt8) : Prop :=
  (∀ b ∈ bs, Json.Reader.isSpace b = true) ∨
    (∀ v rest, Json.readAs .skipped bs ≠ .found v rest) ∧
      ∃ more v, Json.readAs .skipped (bs ++ more) = .found v []

namespace Json.Reader

variable {s t : State} {shape : Shape} {bs more rest blanks : List UInt8} {value : Json}

/-! ## Reading on -/

namespace State

/-- Before the end of what is found a reader goes on, or it has found it already. -/
theorem feed_or_found (h : s.read (bs ++ more) = .found value rest) :
    (∃ t, s.feed bs = some t) ∨ ∃ left, s.read bs = .found value left := by
  induction bs generalizing s with
  | nil => exact .inl ⟨s, rfl⟩
  | cons b bs ih =>
    rw [List.cons_append, read] at h
    cases hstep : s.step b with
    | reading u =>
      rw [hstep] at h
      rw [feed, read, hstep]
      exact ih h
    | finished found used =>
      rw [hstep] at h
      rw [read, hstep]
      cases used <;> cases h <;> exact .inr ⟨_, rfl⟩
    | malformed | unfit =>
      rw [hstep] at h
      cases h

/-- A reader that goes on does not wait for a complete word. -/
theorem pending_of_feed (hs : s.mode.Pending) (h : s.feed bs = some t) : t.mode.Pending := by
  induction bs generalizing s with
  | nil =>
    cases h
    exact hs
  | cons b bs ih =>
    obtain ⟨u, hstep, hfeed⟩ := feed_cons_eq_some h
    rcases step_sound hs b with hsound | ⟨found, hfinished, -⟩
    · rw [hstep] at hsound
      exact ih hsound hfeed
    · rw [hstep] at hfinished
      cases hfinished

end State

/-- Blanks before a value leave a reader as it is. -/
theorem feed_start_append (h : ∀ b ∈ blanks, isSpace b = true) (bs : List UInt8) :
    (start shape).feed (blanks ++ bs) = (start shape).feed bs := by
  induction blanks with
  | nil => rfl
  | cons b blanks ih =>
    have hstep : (start shape).step b = .reading (start shape) := by
      simp [State.step, start, stepBetween, h b List.mem_cons_self]
    rw [List.cons_append, State.feed, hstep]
    exact ih fun c hc => h c (List.mem_cons_of_mem _ hc)

/-- In blanks nothing is found. -/
theorem read_blank (h : ∀ b ∈ bs, isSpace b = true) : (start shape).read bs = .truncated := by
  have hread : (start shape).read (bs ++ []) = .truncated := read_start_append h []
  rwa [List.append_nil] at hread

/-! ## Records -/

section

variable (fields : List Field)

/-- Nothing that is neither a list nor an object is a record. -/
theorem complete_record (value : Json) (used : Bool) :
    complete (.value (.record fields)) value used [] = .unfit := by
  cases value <;> rfl

theorem endNumber_record (done : List UInt8) :
    endNumber (.value (.record fields)) done [] = .unfit ∨
      endNumber (.value (.record fields)) done [] = .malformed := by
  unfold endNumber
  rw [if_neg (by simp [Purpose.passes])]
  split
  · exact .inl (complete_record fields _ _)
  · exact .inr rfl

/-- A byte of a lexeme in place of a record continues the lexeme, or the reader gives up. -/
theorem step_lexeme_record (l : Lexeme) (b : UInt8) :
    (∃ next, State.step ⟨[], .lexeme l (.value (.record fields))⟩ b =
        .reading ⟨[], .lexeme next (.value (.record fields))⟩) ∨
      State.step ⟨[], .lexeme l (.value (.record fields))⟩ b = .unfit ∨
        State.step ⟨[], .lexeme l (.value (.record fields))⟩ b = .malformed := by
  cases l with
  | word left v =>
    cases left with
    | nil => exact .inr (.inl (complete_record fields v false))
    | cons c left =>
      simp only [State.step]
      split
      · exact .inr (.inr rfl)
      split
      · exact .inr (.inl (complete_record fields _ _))
      · exact .inl ⟨_, rfl⟩
  | text part done =>
    simp only [State.step]
    split
    · exact .inl ⟨_, rfl⟩
    · exact .inr (.inr rfl)
    · simp only [Purpose.passes, Bool.false_eq_true, if_false]
      split
      · exact .inr (.inl (complete_record fields _ _))
      · exact .inr (.inr rfl)
  | number part done =>
    simp only [State.step]
    cases part.next? b with
    | some next => exact .inl ⟨_, rfl⟩
    | none =>
      simp only
      split
      · exact .inr (.inr rfl)
      · rcases endNumber_record fields done with h | h
        · exact .inr (.inl (by rw [h]))
        · exact .inr (.inr (by rw [h]))

theorem read_lexeme_record_ne_found (l : Lexeme) :
    State.read ⟨[], .lexeme l (.value (.record fields))⟩ bs ≠ .found value rest := by
  induction bs generalizing l with
  | nil =>
    cases l with
    | word | text => exact Reading.noConfusion
    | number part done =>
      simp only [State.read, State.atEnd, Purpose.passes, Bool.false_eq_true, if_false]
      rcases endNumber_record fields done with h | h <;> rw [h] <;> split <;>
        exact Reading.noConfusion
  | cons b bs ih =>
    rw [State.read]
    rcases step_lexeme_record fields l b with ⟨next, h⟩ | h | h <;> rw [h]
    · exact ih next
    · exact Reading.noConfusion
    · exact Reading.noConfusion

end

end Json.Reader

namespace Engine

open Json.Reader (start State isSpace)
open Json (Unfinished)

/-! ## Beginnings of a response -/

variable {bs more rest : List UInt8} {value : Json} {response : Response}

/-- Where a response is found, a list or an object comes first, after blanks. -/
theorem exists_opening (h : (start Response.codec.shape).read bs = .found value rest) :
    ∃ blanks b tail, bs = blanks ++ b :: tail ∧ (∀ c ∈ blanks, isSpace c = true) ∧
      (b = 91 ∨ b = 123) := by
  have hblanks : ∀ c ∈ bs.takeWhile isSpace, isSpace c = true := fun c hc =>
    List.mem_takeWhile_imp hc
  have hbytes := List.takeWhile_append_dropWhile (p := isSpace) (l := bs)
  rw [← hbytes, Json.Reader.read_start_append hblanks] at h
  cases htail : bs.dropWhile isSpace with
  | nil =>
    rw [htail] at h
    cases h
  | cons b tail =>
    refine ⟨bs.takeWhile isSpace, b, tail, htail ▸ hbytes.symm, hblanks, ?_⟩
    have hspace : isSpace b = false := by
      have hhead := List.head?_dropWhile_not isSpace bs
      rw [htail] at hhead
      exact hhead
    rw [htail, State.read] at h
    by_contra hopening
    rw [not_or] at hopening
    obtain ⟨fields, hfields⟩ : ∃ fields, Response.codec.shape = .record fields := ⟨_, rfl⟩
    have hstep : (start Response.codec.shape).step b =
        Json.Reader.begin [] Response.codec.shape b := by
      simp only [State.step, start, Json.Reader.stepBetween, hspace, Bool.false_eq_true, if_false]
    rw [hstep, hfields] at h
    simp only [Json.Reader.begin, hopening.1, hopening.2, if_false] at h
    cases hl : Json.Reader.lexeme? b with
    | none =>
      rw [hl] at h
      cases h
    | some l =>
      rw [hl] at h
      exact Json.Reader.read_lexeme_record_ne_found fields l h

/-- After the bracket or brace a reader of a response stands inside, and so does one that passes
over what it reads. -/
theorem exists_opened {b : UInt8} (h : b = 91 ∨ b = 123) :
    ∃ u v, (start Response.codec.shape).step b = .reading u ∧ u.Plain ∧
      (start .skipped).step b = .reading v ∧ v.Plain ∧ u.Shadowed v := by
  have hnil : ∀ f ∈ ([] : List Json.Reader.Frame), f.Plain := List.forall_mem_nil _
  have hfollows := Json.Reader.begin_shadowed plain_response [] b
  rcases h with rfl | rfl
  · obtain ⟨v, hv, huv⟩ := hfollows
    refine ⟨_, v, rfl, Json.Reader.openBracket_plain plain_response hnil, hv, ?_, huv⟩
    cases hv
    exact Json.Reader.openBracket_plain .skipped hnil
  · obtain ⟨v, hv, huv⟩ := hfollows
    refine ⟨_, v, rfl, Json.Reader.openBrace_plain plain_response hnil, hv, ?_, huv⟩
    cases hv
    exact Json.Reader.openBrace_plain .skipped hnil

/-- Before the end of what is found the bytes are blank, or the value is found already, or a reader
stands inside of it and goes on to its end. -/
inductive Beginning (bs more : List UInt8) (value : Json) (rest : List UInt8) : Prop
  | blank (h : ∀ b ∈ bs, isSpace b = true)
  | found (left : List UInt8) (h : (start Response.codec.shape).read bs = .found value left)
      (hpassed : Json.readAs .skipped bs = .found .null left)
  | inside (s t : State) (hfeed : (start Response.codec.shape).feed bs = some s) (hs : s.Plain)
      (hread : s.read more = .found value rest) (hpassed : (start .skipped).feed bs = some t)
      (ht : t.Plain) (h : s.Shadowed t)

theorem beginning_of_found
    (h : (start Response.codec.shape).read (bs ++ more) = .found value rest) :
    Beginning bs more value rest := by
  obtain ⟨blanks, b, tail, hbytes, hblanks, hb⟩ := exists_opening h
  obtain ⟨u, v, hu, huplain, hv, hvplain, huv⟩ := exists_opened hb
  rcases List.append_eq_append_iff.1 hbytes with ⟨gap, rfl, -⟩ | ⟨done, rfl, htail⟩
  · exact .blank fun c hc => hblanks c (List.mem_append_left gap hc)
  cases done with
  | nil => exact .blank (by rwa [List.append_nil])
  | cons c done =>
    obtain ⟨rfl, rfl⟩ := List.cons.inj htail
    have hread : u.read (done ++ more) = .found value rest := by
      rw [hbytes, Json.Reader.read_start_append hblanks, State.read, hu] at h
      exact h
    rcases State.feed_or_found hread with ⟨s, hs⟩ | ⟨left, hfound⟩
    · obtain ⟨t, ht, hst⟩ := State.feed_shadowed huplain huv hs
      refine .inside s t ?_ (State.plain_of_feed huplain hs) ?_ ?_ (State.plain_of_feed hvplain ht)
        hst
      · rw [Json.Reader.feed_start_append hblanks, State.feed, hu]
        exact hs
      · rw [← State.read_append hs]
        exact hread
      · rw [Json.Reader.feed_start_append hblanks, State.feed, hv]
        exact ht
    · refine .found left ?_ ?_
      · rw [Json.Reader.read_start_append hblanks, State.read, hu]
        exact hfound
      · rw [Json.readAs, Json.Reader.read_start_append hblanks, State.read, hv]
        exact State.read_shadowed huplain huv hfound

/-- The reader of a response does not notice that the bytes are cut off. -/
def Cuttable (bs : List UInt8) : Prop :=
  ∀ s, (start Response.codec.shape).feed bs = some s → s.cuttable = true

/-- A complete value is not unfinished. -/
theorem not_unfinished_of_found (h : Response.codec.read bs = .found response rest) :
    ¬ Unfinished bs := by
  obtain ⟨v, hread, -⟩ := read_eq_found_iff.1 h
  have hwhole : (start Response.codec.shape).read (bs ++ []) = .found v rest := by
    rwa [List.append_nil]
  rintro (hblank | ⟨hnone, -⟩)
  · rw [Json.Reader.read_blank hblank] at hread
    cases hread
  · cases beginning_of_found hwhole with
    | blank hblank =>
      rw [Json.Reader.read_blank hblank] at hread
      cases hread
    | found left h hpassed => exact hnone _ _ hpassed
    | inside s t hfeed hs hend => exact State.atEnd_ne_found hs hend

theorem cuttable_of_blank (h : ∀ b ∈ bs, isSpace b = true) : Cuttable bs := by
  intro s hs
  have hfeed : (start Response.codec.shape).feed (bs ++ []) = some (start Response.codec.shape) :=
    Json.Reader.feed_start_append h []
  rw [List.append_nil, hs] at hfeed
  cases hfeed
  rfl

theorem cuttable_iff {s : State} (hs : (start Response.codec.shape).feed bs = some s) :
    Cuttable bs ↔ s.cuttable = true := by
  refine ⟨fun h => h s hs, fun h t ht => ?_⟩
  obtain rfl : s = t := Option.some.inj (hs.symm.trans ht)
  exact h

/-- A beginning that is unfinished is waited on, unless it is noticed that it is cut off. -/
theorem read_of_unfinished (hunfinished : Unfinished bs)
    (h : Response.codec.read (bs ++ more) = .found response rest) :
    (Cuttable bs ∧ Response.codec.read bs = .truncated) ∨
      (¬ Cuttable bs ∧ Response.codec.read bs = .malformed) := by
  obtain ⟨v, hread, -⟩ := read_eq_found_iff.1 h
  cases beginning_of_found hread with
  | blank hblank =>
    refine .inl ⟨cuttable_of_blank hblank, ?_⟩
    rw [Codec.read, Json.readAs, Json.Reader.read_blank hblank]
  | found left hfound hpassed =>
    rcases hunfinished with hblank | ⟨hnone, -⟩
    · rw [Json.Reader.read_blank hblank] at hfound
      cases hfound
    · exact absurd hpassed (hnone _ _)
  | inside s t hfeed hs hend =>
    rw [cuttable_iff hfeed, Codec.read, Json.readAs, State.read_of_feed hfeed]
    by_cases hcut : s.cuttable = true
    · exact .inl ⟨hcut, by rw [State.atEnd_of_cuttable hs hcut hend]⟩
    · rw [Bool.not_eq_true] at hcut
      exact .inr ⟨by simp [hcut], by rw [State.atEnd_of_not_cuttable hcut]⟩

/-- A beginning that is waited on is unfinished, and it is not noticed that it is cut off. -/
theorem unfinished_of_truncated (htruncated : Response.codec.read bs = .truncated)
    (h : Response.codec.read (bs ++ more) = .found response rest) :
    Unfinished bs ∧ Cuttable bs := by
  obtain ⟨v, hread, hdecode⟩ := read_eq_found_iff.1 h
  cases beginning_of_found hread with
  | blank hblank => exact ⟨.inl hblank, cuttable_of_blank hblank⟩
  | found left hfound =>
    rw [read_eq_found_iff.2 ⟨v, hfound, hdecode⟩] at htruncated
    cases htruncated
  | inside s t hfeed hs hend hpassed ht hst =>
    have hmore := State.read_shadowed hs hst hend
    have hstart : (start .skipped).mode.Pending := trivial
    have hpending := State.pending_of_feed hstart hpassed
    obtain ⟨used, -, hused⟩ := Json.Reader.exists_append_of_read hpending hmore
    refine ⟨.inr ⟨fun v rest hfound => ?_, used, .null, ?_⟩, ?_⟩
    · rw [Json.readAs, State.read_of_feed hpassed] at hfound
      exact State.atEnd_ne_found ht hfound
    · rw [Json.readAs, State.read_append hpassed]
      exact hused
    · rw [cuttable_iff hfeed]
      by_contra hcut
      rw [Bool.not_eq_true] at hcut
      rw [Codec.read, Json.readAs, State.read_of_feed hfeed, State.atEnd_of_not_cuttable hcut]
        at htruncated
      cases htruncated

/-! ## What is received -/

/-- What a client has received, with the room that it has and the stream that it reads from. -/
structure Intake where
  room : Nat
  done : List UInt8
  stream : Stream

namespace Intake

/-- The next read of the client. -/
def read (i : Intake) : Delivery × Stream :=
  i.stream.read (enlarge i.room i.done.length - i.done.length)

/-- What the client has received after the next read, if that gets bytes. -/
def next (i : Intake) : Option Intake :=
  match i.read with
  | (.bytes (b :: bs), s) => some ⟨enlarge i.room i.done.length, i.done ++ b :: bs, s⟩
  | _ => none

/-- The client goes on to receive a response. -/
def receive (bound : UInt64) (i : Intake) : Except LinkFailure Response × Stream :=
  Engine.receive bound i.room i.done i.stream

end Intake

/-- What a client has received by the first `n` reads, if each of them gets bytes. -/
def Stream.intake (s : Stream) : Nat → Option Intake
  | 0 => some ⟨initialRoom, [], s⟩
  | n + 1 => (s.intake n).bind Intake.next

/-- After each of the first `n` reads the bytes are within the bound, and more are waited for. -/
def Stream.Waited (s : Stream) (bound : UInt64) (n : Nat) : Prop :=
  ∀ j < n, ∃ i, s.intake (j + 1) = some i ∧ i.done.length ≤ bound.toNat ∧
    Response.codec.read i.done = .truncated

/-- How receiving ends with a read: it fails, or it is the end of the stream, or there are too many
bytes, or they hold no response, or one. -/
inductive Stream.Concludes (s : Stream) (bound : UInt64) :
    Nat → Except LinkFailure Response × Stream → Prop
  | fault {n : Nat} {i : Intake} {reason : String} {t : Stream} (hi : s.intake n = some i)
      (h : i.read = (.fault reason, t)) : Concludes s bound (n + 1) (.error (.reading reason), t)
  | ended {n : Nat} {i : Intake} {t : Stream} (hi : s.intake n = some i)
      (h : i.read = (.bytes [], t)) : Concludes s bound (n + 1) (.error .endedEarly, t)
  | tooLong {n : Nat} {i : Intake} (hi : s.intake n = some i)
      (h : bound.toNat < i.done.length) : Concludes s bound n (.error (.tooLong bound), i.stream)
  | malformed {n : Nat} {i : Intake} (hi : s.intake n = some i)
      (hbound : i.done.length ≤ bound.toNat)
      (h : Response.codec.read i.done = .malformed ∨ Response.codec.read i.done = .unfit) :
      Concludes s bound n (.error .malformedResponse, i.stream)
  | received {n : Nat} {i : Intake} {response : Response} {rest : List UInt8}
      (hi : s.intake n = some i) (hbound : i.done.length ≤ bound.toNat)
      (h : Response.codec.read i.done = .found response rest) :
      Concludes s bound n (.ok response, i.stream)

/-- After `n` reads, and not before, the bytes are more than blanks or the beginning of a value, and
then they are within the bound and begin with a response. -/
structure Stream.Brings (s : Stream) (bound : UInt64) (n : Nat) (response : Response) : Prop where
  before : ∀ j < n, ∀ i, s.intake j = some i → Unfinished i.done
  after : ∃ i rest, s.intake n = some i ∧ ¬ Unfinished i.done ∧ i.done.length ≤ bound.toNat ∧
    Response.codec.read i.done = .found response rest

/-- It is not noticed that the bytes are cut off after any of the first reads. -/
def Stream.Unnoticed (s : Stream) (n : Nat) : Prop :=
  ∀ j < n, ∀ i, s.intake j = some i → Cuttable i.done

/-! ## One read -/

namespace Intake

variable {i k : Intake} {bound : UInt64} {t : Stream}

/-- A read that gets bytes adds them. -/
theorem exists_of_next (h : i.next = some k) :
    ∃ b bs t, i.read = (.bytes (b :: bs), t) ∧
      k = ⟨enlarge i.room i.done.length, i.done ++ b :: bs, t⟩ := by
  unfold next at h
  split at h
  · rename_i b bs t hread
    exact ⟨b, bs, t, hread, (Option.some.inj h).symm⟩
  · cases h

theorem next_of_read {b : UInt8} {bs : List UInt8} (h : i.read = (.bytes (b :: bs), t)) :
    i.next = some ⟨enlarge i.room i.done.length, i.done ++ b :: bs, t⟩ := by
  rw [next, h]

/-- A read fails, or it is the end of the stream, or it gets bytes. -/
theorem read_cases (i : Intake) :
    (∃ reason t, i.read = (.fault reason, t)) ∨ (∃ t, i.read = (.bytes [], t)) ∨
      ∃ k, i.next = some k := by
  rcases h : i.read with ⟨⟨_ | ⟨b, bs⟩⟩ | reason, t⟩
  · exact .inr (.inl ⟨t, rfl⟩)
  · exact .inr (.inr ⟨_, next_of_read h⟩)
  · exact .inl ⟨reason, t, rfl⟩

theorem receive_of_fault {reason : String} (h : i.read = (.fault reason, t)) :
    i.receive bound = (.error (.reading reason), t) := by
  rw [read] at h
  rw [receive, Engine.receive]
  split <;> rename_i hread <;> rw [h] at hread <;> cases hread
  rfl

theorem receive_of_end (h : i.read = (.bytes [], t)) :
    i.receive bound = (.error .endedEarly, t) := by
  rw [read] at h
  rw [receive, Engine.receive]
  split <;> rename_i hread <;> rw [h] at hread <;> cases hread
  rfl

theorem receive_of_tooLong (h : i.next = some k) (hbound : bound.toNat < k.done.length) :
    i.receive bound = (.error (.tooLong bound), k.stream) := by
  obtain ⟨b, bs, t, hgot, rfl⟩ := exists_of_next h
  rw [read] at hgot
  rw [receive, Engine.receive]
  split <;> rename_i hread <;> rw [hgot] at hread <;> cases hread
  exact if_pos hbound

/-- Receiving goes on with what the bytes hold. -/
theorem receive_of_next (h : i.next = some k) (hbound : k.done.length ≤ bound.toNat) :
    i.receive bound = resume bound k.room k.done k.stream (Response.codec.read k.done) := by
  obtain ⟨b, bs, t, hread, rfl⟩ := exists_of_next h
  exact receive_eq hread hbound

end Intake

/-! ## Many reads -/

namespace Stream

variable {s : Stream} {bound : UInt64} {n j : Nat} {i k : Intake}

theorem intake_succ (hi : s.intake n = some i) : s.intake (n + 1) = i.next := by
  rw [intake, hi]
  rfl

theorem exists_of_intake_succ (hi : s.intake (n + 1) = some i) :
    ∃ k, s.intake n = some k ∧ k.next = some i :=
  Option.bind_eq_some_iff.1 hi

/-- What was received by fewer reads is the beginning of what is received by more. -/
theorem exists_intake_of_le (hi : s.intake n = some i) (hj : j ≤ n) :
    ∃ k, s.intake j = some k ∧ k.done <+: i.done := by
  induction n generalizing i with
  | zero =>
    obtain rfl := Nat.le_zero.1 hj
    exact ⟨i, hi, List.prefix_rfl⟩
  | succ n ih =>
    rcases Nat.lt_or_eq_of_le hj with hlt | rfl
    · obtain ⟨m, hm, hnext⟩ := exists_of_intake_succ hi
      obtain ⟨k, hk, hbegins⟩ := ih hm (Nat.le_of_lt_succ hlt)
      obtain ⟨b, bs, t, -, rfl⟩ := Intake.exists_of_next hnext
      exact ⟨k, hk, hbegins.trans (List.prefix_append _ _)⟩
    · exact ⟨i, hi, List.prefix_rfl⟩

/-- Every read gets at least one byte. -/
theorem le_length_of_intake (hi : s.intake n = some i) : n ≤ i.done.length := by
  induction n generalizing i with
  | zero => exact Nat.zero_le _
  | succ n ih =>
    obtain ⟨k, hk, hnext⟩ := exists_of_intake_succ hi
    obtain ⟨b, bs, t, -, rfl⟩ := Intake.exists_of_next hnext
    have hlength := ih hk
    rw [List.length_append, List.length_cons]
    omega

namespace Waited

theorem mono (h : s.Waited bound n) (hj : j ≤ n) : s.Waited bound j :=
  fun m hm => h m (Nat.lt_of_lt_of_le hm hj)

theorem succ (h : s.Waited bound n) (hi : s.intake (n + 1) = some i)
    (hbound : i.done.length ≤ bound.toNat) (hread : Response.codec.read i.done = .truncated) :
    s.Waited bound (n + 1) := by
  intro j hj
  rcases Nat.lt_or_eq_of_le (Nat.le_of_lt_succ hj) with hlt | rfl
  · exact h j hlt
  · exact ⟨i, hi, hbound, hread⟩

/-- There are no more reads after which more is waited for than the bound allows bytes. -/
theorem le_bound (h : s.Waited bound n) : n ≤ bound.toNat := by
  cases n with
  | zero => exact Nat.zero_le _
  | succ n =>
    obtain ⟨i, hi, hbound, -⟩ := h n (Nat.lt_succ_self n)
    exact Nat.le_trans (le_length_of_intake hi) hbound

/-- As long as more is waited for, receiving goes on. -/
theorem receive_eq (h : s.Waited bound n) (hi : s.intake n = some i) :
    receive bound initialRoom [] s = i.receive bound := by
  induction n generalizing i with
  | zero =>
    cases hi
    rfl
  | succ n ih =>
    obtain ⟨k, hk, hnext⟩ := exists_of_intake_succ hi
    obtain ⟨i', hi', hbound, hread⟩ := h n (Nat.lt_succ_self n)
    obtain rfl : i = i' := Option.some.inj (hi.symm.trans hi')
    rw [ih (h.mono (Nat.le_succ n)) hk, Intake.receive_of_next hnext hbound, hread]
    rfl

/-- Receiving ends. -/
theorem exists_concludes (h : s.Waited bound n) (hi : s.intake n = some i) :
    ∃ m, s.Waited bound m ∧ s.Concludes bound (m + 1) (i.receive bound) := by
  -- By induction on the bytes that the stream has yet to deliver.
  induction hremaining : i.stream.remaining using Nat.strong_induction_on generalizing n i with
  | _ remaining ih =>
  rcases i.read_cases with ⟨reason, t, hread⟩ | ⟨t, hread⟩ | ⟨k, hnext⟩
  · exact ⟨n, h, by rw [Intake.receive_of_fault hread]; exact .fault hi hread⟩
  · exact ⟨n, h, by rw [Intake.receive_of_end hread]; exact .ended hi hread⟩
  have hk : s.intake (n + 1) = some k := by rw [intake_succ hi, hnext]
  rcases Nat.lt_or_ge bound.toNat k.done.length with hlt | hle
  · exact ⟨n, h, by rw [Intake.receive_of_tooLong hnext hlt]; exact .tooLong hk hlt⟩
  rw [Intake.receive_of_next hnext hle]
  cases hread : Response.codec.read k.done with
  | found response rest => exact ⟨n, h, .received hk hle hread⟩
  | malformed => exact ⟨n, h, .malformed hk hle (.inl hread)⟩
  | unfit => exact ⟨n, h, .malformed hk hle (.inr hread)⟩
  | truncated =>
    have hless : k.stream.remaining < remaining := by
      obtain ⟨b, bs, t, hgot, rfl⟩ := Intake.exists_of_next hnext
      rw [← hremaining]
      exact remaining_read hgot
    exact ih _ hless (h.succ hk hle hread) hk rfl

end Waited

/-! ## What is returned -/

/-- Before a response is complete nothing is found, and the bytes are within the bound. -/
theorem Brings.before_of_lt {response : Response} (h : s.Brings bound n response) (hj : j < n) :
    ∃ k, s.intake j = some k ∧ k.done.length ≤ bound.toNat ∧
      ((Cuttable k.done ∧ Response.codec.read k.done = .truncated) ∨
        (¬ Cuttable k.done ∧ Response.codec.read k.done = .malformed)) := by
  obtain ⟨i, rest, hi, -, hbound, hread⟩ := h.after
  obtain ⟨k, hk, more, hmore⟩ := exists_intake_of_le hi (Nat.le_of_lt hj)
  rw [← hmore] at hread hbound
  refine ⟨k, hk, ?_, read_of_unfinished (h.before j hj k hk) hread⟩
  rw [List.length_append] at hbound
  omega

/-- More is waited for until it is noticed that the bytes are cut off, or a response is complete. -/
theorem Brings.waited {response : Response} (h : s.Brings bound (n + 1) response) (hj : j ≤ n)
    (hunnoticed : s.Unnoticed (j + 1)) : s.Waited bound j := by
  intro m hm
  obtain ⟨k, hk, hbound, hcases⟩ := h.before_of_lt (Nat.succ_lt_succ (Nat.lt_of_lt_of_le hm hj))
  have hcuttable := hunnoticed (m + 1) (Nat.succ_lt_succ hm) k hk
  exact ⟨k, hk, hbound, (hcases.resolve_right fun hnot => hnot.1 hcuttable).2⟩

/-- Before the first read there is nothing, which is unfinished and not noticed to be cut off. -/
theorem nothing_before (hi : s.intake 0 = some i) : Unfinished i.done ∧ Cuttable i.done := by
  cases hi
  exact ⟨.inl (List.forall_mem_nil _), cuttable_of_blank (List.forall_mem_nil _)⟩

theorem Brings.exists_eq_succ {response : Response} (h : s.Brings bound n response) :
    ∃ m, n = m + 1 := by
  cases n with
  | zero =>
    obtain ⟨i, rest, hi, hnot, -⟩ := h.after
    exact absurd (nothing_before hi).1 hnot
  | succ n => exact ⟨n, rfl⟩

/-- The first read after which it is noticed that the bytes are cut off. -/
theorem exists_first_noticed (h : ¬ s.Unnoticed n) :
    ∃ j < n, s.Unnoticed j ∧ ∃ i, s.intake j = some i ∧ ¬ Cuttable i.done := by
  induction n with
  | zero => exact absurd (fun j hj => absurd hj (Nat.not_lt_zero j)) h
  | succ n ih =>
    by_cases hbefore : s.Unnoticed n
    · simp only [Unnoticed, not_forall] at h
      obtain ⟨j, hj, i, hi, hnot⟩ := h
      rcases Nat.lt_or_eq_of_le (Nat.le_of_lt_succ hj) with hlt | rfl
      · exact absurd (hbefore j hlt i hi) hnot
      · exact ⟨j, hj, hbefore, i, hi, hnot⟩
    · obtain ⟨j, hj, hfirst⟩ := ih hbefore
      exact ⟨j, Nat.lt_succ_of_lt hj, hfirst⟩

/-- What is received after waiting is what the stream brings. -/
theorem Waited.brings {response : Response} {rest : List UInt8} (h : s.Waited bound n)
    (hi : s.intake (n + 1) = some i) (hbound : i.done.length ≤ bound.toNat)
    (hread : Response.codec.read i.done = .found response rest) :
    s.Brings bound (n + 1) response ∧ s.Unnoticed (n + 1) := by
  have hbefore (j : Nat) (hj : j < n + 1) (k : Intake) (hk : s.intake j = some k) :
      Unfinished k.done ∧ Cuttable k.done := by
    cases j with
    | zero => exact nothing_before hk
    | succ j =>
      obtain ⟨k', hk', -, htruncated⟩ := h j (Nat.lt_of_succ_lt_succ hj)
      obtain rfl : k = k' := Option.some.inj (hk.symm.trans hk')
      obtain ⟨k', hk', more, hmore⟩ := exists_intake_of_le hi (Nat.le_of_lt hj)
      obtain rfl : k = k' := Option.some.inj (hk.symm.trans hk')
      rw [← hmore] at hread
      exact unfinished_of_truncated htruncated hread
  exact ⟨⟨fun j hj k hk => (hbefore j hj k hk).1,
    i, rest, hi, not_unfinished_of_found hread, hbound, hread⟩,
    fun j hj k hk => (hbefore j hj k hk).2⟩

/-- The read that comes after waiting decides, if the bytes are within the bound. -/
theorem Waited.receive_succ (h : s.Waited bound n) (hi : s.intake (n + 1) = some i)
    (hbound : i.done.length ≤ bound.toNat) :
    receive bound initialRoom [] s =
      resume bound i.room i.done i.stream (Response.codec.read i.done) := by
  obtain ⟨k, hk, hnext⟩ := exists_of_intake_succ hi
  rw [h.receive_eq hk, Intake.receive_of_next hnext hbound]

end Stream

variable {s : Stream} {bound : UInt64} {n : Nat}

/-- What a stream brings is returned, unless it is noticed that it is cut off. -/
theorem receive_of_unnoticed (h : s.Brings bound n response) (hunnoticed : s.Unnoticed n) :
    (receive bound initialRoom [] s).1 = .ok response := by
  obtain ⟨m, rfl⟩ := h.exists_eq_succ
  obtain ⟨i, rest, hi, -, hbound, hread⟩ := h.after
  rw [(h.waited (Nat.le_refl m) hunnoticed).receive_succ hi hbound, hread]
  rfl

/-- When it is noticed, the response is given up. -/
theorem receive_of_noticed (h : s.Brings bound n response) (hnoticed : ¬ s.Unnoticed n) :
    (receive bound initialRoom [] s).1 = .error .malformedResponse := by
  obtain ⟨j, hj, hbefore, i, hi, hnot⟩ := Stream.exists_first_noticed hnoticed
  obtain ⟨m, rfl⟩ := h.exists_eq_succ
  cases j with
  | zero => exact absurd (Stream.nothing_before hi).2 hnot
  | succ j =>
    obtain ⟨k, hk, hbound, hcases⟩ := h.before_of_lt hj
    obtain rfl : i = k := Option.some.inj (hi.symm.trans hk)
    have hread := (hcases.resolve_left fun hcut => hnot hcut.1).2
    have hwaited := h.waited (Nat.le_of_lt (Nat.lt_of_succ_lt_succ hj)) hbefore
    rw [hwaited.receive_succ hi hbound, hread]
    rfl

/-- Receiving waits for more while the bytes are within the bound and hold no response, and ends
with the read after that, so that there is at most one read more than the bound allows bytes. It
returns the response that the stream brings, if it is not noticed before that the bytes are cut off,
and no other one; if it is noticed, the response is given up as malformed. -/
theorem receive_outcome (bound : UInt64) (s : Stream) :
    (∃ n ≤ bound.toNat, s.Waited bound n ∧
      s.Concludes bound (n + 1) (receive bound initialRoom [] s)) ∧
    (∀ response, (receive bound initialRoom [] s).1 = .ok response ↔
      ∃ n, s.Brings bound n response ∧ s.Unnoticed n) ∧
    ∀ n response, s.Brings bound n response → ¬ s.Unnoticed n →
      (receive bound initialRoom [] s).1 = .error .malformedResponse := by
  have hnone : s.Waited bound 0 := fun j hj => absurd hj (Nat.not_lt_zero j)
  have hzero : s.intake 0 = some ⟨initialRoom, [], s⟩ := rfl
  obtain ⟨n, hwaited, hconcludes⟩ := hnone.exists_concludes hzero
  have hends : s.Concludes bound (n + 1) (receive bound initialRoom [] s) := hconcludes
  refine ⟨⟨n, hwaited.le_bound, hwaited, hends⟩, fun response => ⟨fun hok => ?_, ?_⟩,
    fun _ _ => receive_of_noticed⟩
  · generalize receive bound initialRoom [] s = outcome at hends hok
    cases hends with
    | received hi hbound hread =>
      cases hok
      exact ⟨n + 1, hwaited.brings hi hbound hread⟩
    | fault | ended | tooLong | malformed => cases hok
  · rintro ⟨n, hbrings, hunnoticed⟩
    exact receive_of_unnoticed hbrings hunnoticed

/-- The reply that declines a call, up to the minus of the number that is passed over. -/
def Reply.declinedBefore : List UInt8 :=
  Text.bytes "\x7b\"jsonrpc\":\"2.0\",\"id\":1,\"error\":\x7b\"code\":-32602,\"data\":-"

/-- A stream that brings the reply in two pieces, cut after the minus. -/
def Stream.cut : Stream where
  reads := [.bytes Reply.declinedBefore, .bytes (Text.bytes "5\x7d\x7d")]

/-- It brings the reply with the second read, but the reply is given up after the first one. -/
theorem receive_cut :
    Stream.cut.Brings 100 2 Reply.declined.response ∧
      (receive 100 initialRoom [] Stream.cut).1 = .error .malformedResponse := by
  have hfirst : Stream.cut.intake 1 = some ⟨initialRoom, Reply.declinedBefore,
      { reads := [.bytes (Text.bytes "5\x7d\x7d")] }⟩ := rfl
  have hsecond : Stream.cut.intake 2 = some ⟨initialRoom, Reply.declined.text, {}⟩ := rfl
  have hunfinished : Unfinished Reply.declinedBefore := by
    refine .inr ⟨fun v rest hfound => ?_, Text.bytes "5\x7d\x7d", .null, rfl⟩
    have hmalformed : Json.readAs .skipped Reply.declinedBefore = .malformed := rfl
    rw [hmalformed] at hfound
    cases hfound
  have hbrings : Stream.cut.Brings 100 2 Reply.declined.response := by
    refine ⟨fun j hj i hi => ?_, _, [], hsecond,
      not_unfinished_of_found Reply.declined.reads, by decide +kernel, Reply.declined.reads⟩
    obtain rfl | rfl : j = 0 ∨ j = 1 := by omega
    · exact (Stream.nothing_before hi).1
    · obtain rfl := Option.some.inj (hfirst.symm.trans hi)
      exact hunfinished
  refine ⟨hbrings, receive_of_noticed hbrings fun hunnoticed => ?_⟩
  have hmalformed : Response.codec.read Reply.declinedBefore = .malformed := rfl
  rcases read_of_unfinished hunfinished Reply.declined.reads with ⟨-, htruncated⟩ | ⟨hnot, -⟩
  · rw [hmalformed] at htruncated
    cases htruncated
  · exact hnot (hunnoticed 1 (by decide) _ hfirst)

end Engine

end StorageControl
