/-
# One call over a stream

The answer to a call is taken from bytes that were read for it, when the line of the request had
been written in full and sent on. These bytes begin, after blanks, with an envelope that bears the
number of the call. Everything else ends in a fault of the connection, or in the answer of another
call, and then the stream is given up.
-/
import StorageControl.Engine.Conversation
import StorageControl.Proofs.Reader

namespace StorageControl

/-- The failure is one of the connection, and not of a result that came over it. -/
def LinkFailure.OfLink : LinkFailure → Prop
  | .malformedResult _ => False
  | _ => True

namespace Engine

open Json.Reader (isSpace)

/-! ## Streams -/

namespace Stream

variable {s t u : Stream}

/-- A write leaves on the stream what the stream accepts of the text. -/
theorem written_of_write {text : String} {r : Except String Unit} (h : s.write text = (r, t)) :
    t.written = s.written ++ s.accepted text := by
  unfold write at h
  split at h <;> cases h <;> rfl

/-- The stream accepts the whole text, or the write fails before the last byte. -/
theorem write_cases (s : Stream) (text : String) :
    ((s.write text).1 = .ok () ∧ s.accepted text = Text.bytes text) ∨
      ∃ reason, (s.write text).1 = .error reason ∧
        s.accepted text <+: (Text.bytes text).dropLast := by
  simp only [write, accepted]
  rcases s.writes with _ | ⟨_ | reason, writes⟩
  · exact .inl ⟨rfl, rfl⟩
  · exact .inl ⟨rfl, rfl⟩
  · exact .inr ⟨reason, rfl, List.take_prefix _ _⟩

/-- What the stream accepts of a text is a beginning of it. -/
theorem accepted_prefix (s : Stream) (text : String) : s.accepted text <+: Text.bytes text := by
  rcases s.write_cases text with ⟨-, hall⟩ | ⟨_, -, hpart⟩
  · exact hall ▸ List.prefix_refl _
  · exact hpart.trans (List.dropLast_prefix _)

/-- The stream accepts the whole text if the write does not fail. -/
theorem accepted_of_write {text : String} (h : s.write text = (.ok (), t)) :
    s.accepted text = Text.bytes text := by
  rcases s.write_cases text with ⟨-, hall⟩ | ⟨_, hr, -⟩
  · exact hall
  · rw [h] at hr
    cases hr

/-- Sending on writes nothing more. -/
theorem written_of_flush {r : Except String Unit} (h : s.flush = (r, t)) :
    t.written = s.written := by
  unfold flush at h
  split at h <;> cases h <;> rfl

/-- Reading writes nothing. -/
theorem written_of_read {room : Nat} {d : Delivery} (h : s.read room = (d, t)) :
    t.written = s.written := by
  unfold read at h
  repeat' split at h
  all_goals cases h
  all_goals rfl

/-- A stream delivers bytes in some reads, none of which fails. -/
inductive Delivers : Stream → List UInt8 → Stream → Prop
  | nothing (s : Stream) : Delivers s [] s
  | more {s t u : Stream} {room : Nat} {bs got : List UInt8}
      (hread : s.read room = (.bytes bs, t)) (hrest : Delivers t got u) :
      Delivers s (bs ++ got) u

theorem Delivers.written_eq {got : List UInt8} (h : s.Delivers got u) : u.written = s.written := by
  induction h with
  | nothing => rfl
  | more hread _ ih => rw [ih, written_of_read hread]

/-- The answer to a request comes over a stream. The line of the request is written in full and sent
on, and the bytes that are read then begin, after blanks, with an envelope that bears the number of
the request and holds the answer. -/
inductive Answers (request : Request) (s : Stream) (answer : Answer) (u : Stream) : Prop
  | intro {written flushed : Stream} {blanks text rest : List UInt8} {response : Response}
      (hwrite : s.write request.line = (.ok (), written))
      (hflush : written.flush = (.ok (), flushed))
      (hread : flushed.Delivers (blanks ++ text ++ rest) u)
      (hblanks : ∀ b ∈ blanks, isSpace b = true) (htext : ∀ b ∈ text.head?, isSpace b = false)
      (henvelope : Response.codec.read text = .found response [])
      (hnumber : response.id = request.id) (hanswer : answer = response.answer request.id)

/-- With the answer the line of the request has been accepted in full. -/
theorem Answers.accepted_eq {request : Request} {answer : Answer}
    (h : Answers request s answer u) : s.accepted request.line = Text.bytes request.line := by
  obtain ⟨hwrite, -, -, -, -, -, -, -⟩ := h
  exact accepted_of_write hwrite

end Stream

/-! ## Answers -/

/-- The engine has answered: with a result, or by declining the call. -/
inductive Answer.Settled : Answer → Prop
  | ok (v : Json) : Settled (.ok v)
  | declined (code : Int64) (message : String) : Settled (.error (.declined code message))

/-- The call ends in a fault of the connection, or in the answer of another call. -/
inductive Answer.Broken : Answer → Prop
  | unreachable {why : LinkFailure} (h : why.OfLink) : Broken (.error (.unreachable why))
  | mismatched (sent received : UInt64) : Broken (.error (.mismatched sent received))

theorem Answer.Settled.not_broken {answer : Answer} (h : answer.Settled) : ¬ answer.Broken := by
  cases h <;> nofun

/-- A response with the number of the call settles it, and any other one breaks it. -/
theorem Response.answer_cases (r : Response) (id : UInt64) :
    (r.id = id ∧ (r.answer id).Settled) ∨ (r.answer id).Broken := by
  unfold answer
  split
  · exact .inr (.mismatched _ _)
  · rename_i h
    refine .inl ⟨not_not.1 h, ?_⟩
    repeat' split
    all_goals constructor

/-! ## Sending and receiving -/

/-- A request is sent when its line is written and sent on. Either way the stream has what it
accepts of the line. -/
theorem send_cases {request : Request} {s t : Stream} {r : Except LinkFailure Unit}
    (h : send request s = (r, t)) :
    t.written = s.written ++ s.accepted request.line ∧
      ((r = .ok () ∧ ∃ written, s.write request.line = (.ok (), written) ∧
          written.flush = (.ok (), t)) ∨
        ∃ failure, failure.OfLink ∧ r = .error failure) := by
  unfold send at h
  cases hwrite : s.write request.line with
  | mk wrote written =>
    rw [← Stream.written_of_write hwrite]
    rw [hwrite] at h
    cases wrote with
    | error reason =>
      cases h
      exact ⟨rfl, .inr ⟨_, by trivial, rfl⟩⟩
    | ok =>
      cases hflush : written.flush with
      | mk flushed t' =>
        rw [← Stream.written_of_flush hflush]
        cases flushed with
        | error reason =>
          simp only [hflush] at h
          cases h
          exact ⟨rfl, .inr ⟨_, by trivial, rfl⟩⟩
        | ok =>
          simp only [hflush] at h
          cases h
          exact ⟨rfl, .inl ⟨rfl, written, rfl, hflush⟩⟩

/-- A response is received when the bytes that are read begin with it. -/
theorem receive_cases {bound : UInt64} {room : Nat} {done : List UInt8} {s u : Stream}
    {r : Except LinkFailure Response} (h : receive bound room done s = (r, u)) :
    (∃ got rest response, r = .ok response ∧ s.Delivers got u ∧
        Response.codec.read (done ++ got) = .found response rest) ∨
      ∃ failure, failure.OfLink ∧ r = .error failure ∧ u.written = s.written := by
  -- By induction on the reads: a response that is not complete yet goes on in the next one.
  fun_induction receive bound room done s with
  | case1 _ _ _ _ _ _ hread | case2 _ _ _ _ _ hread | case3 _ _ _ _ _ _ _ hread
  | case6 _ _ _ _ _ _ _ hread | case7 _ _ _ _ _ _ _ hread =>
    cases h
    exact .inr ⟨_, by trivial, rfl, Stream.written_of_read hread⟩
  | case4 _ _ _ _ b bs _ hread _ _ response rest hfound =>
    cases h
    refine .inl ⟨b :: bs, rest, response, rfl, ?_, hfound⟩
    simpa using Stream.Delivers.more hread (.nothing _)
  | case5 _ _ _ _ b bs _ hread _ _ _ ih =>
    rcases ih h with ⟨got, rest, response, rfl, hgot, hfound⟩ | ⟨failure, hlink, rfl, hwritten⟩
    · refine .inl ⟨b :: bs ++ got, rest, response, rfl, .more hread hgot, ?_⟩
      rw [← List.append_assoc]
      exact hfound
    · exact .inr ⟨failure, hlink, rfl, hwritten.trans (Stream.written_of_read hread)⟩

/-- An exchange over a stream settles a call with the answer to it, or breaks it. Either way the
stream has what it accepts of the line. -/
theorem exchange_cases {bound : UInt64} {request : Request} {s u : Stream} {answer : Answer}
    (h : exchange bound request s = (answer, u)) :
    u.written = s.written ++ s.accepted request.line ∧
      ((s.Answers request answer u ∧ answer.Settled) ∨ answer.Broken) := by
  unfold exchange at h
  cases hsend : send request s with
  | mk sent t =>
    rw [hsend] at h
    obtain ⟨ht, ⟨rfl, written, hwrite, hflush⟩ | ⟨failure, hlink, rfl⟩⟩ := send_cases hsend
    · rw [← ht]
      cases hreceive : receive bound initialRoom [] t with
      | mk received _ =>
        simp only [hreceive] at h
        rcases receive_cases hreceive with ⟨got, rest, response, rfl, hgot, hfound⟩ |
          ⟨failure, hlink, rfl, hwritten⟩
        · cases h
          refine ⟨hgot.written_eq, ?_⟩
          rcases response.answer_cases request.id with ⟨hnumber, hsettled⟩ | hbroken
          · obtain ⟨blanks, text, rfl, hblanks, htext, henvelope⟩ :=
              Codec.exists_text_of_read hfound
            exact .inl ⟨.intro hwrite hflush hgot hblanks htext henvelope hnumber rfl, hsettled⟩
          · exact .inr hbroken
        · cases h
          exact ⟨hwritten, .inr (.unreachable hlink)⟩
    · cases h
      exact ⟨ht, .inr (.unreachable hlink)⟩

end Engine

end StorageControl
