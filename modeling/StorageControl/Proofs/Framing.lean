/-
# Replies arrive in pieces

The engine sends every reply as one line, and the line may arrive in any pieces. A client puts them
together again, as long as it does not matter where the text of a reply is cut.
-/
import Mathlib.Data.List.Infix
import StorageControl.Proofs.Conversation
import StorageControl.Proofs.Prefix

namespace StorageControl.Engine

open Json.Reader (start State isSpace)

/-! ## Replies -/

/-- A reply of the engine: the text of an object, and the response that it holds. -/
structure Reply where
  text : List UInt8
  response : Response
  head : text.head? = some 123
  reads : Response.codec.read text = .found response []

/-- It does not matter where the text of the reply is cut. -/
def Reply.Steady (r : Reply) : Prop :=
  ∀ before s, before <+: r.text → (start Response.codec.shape).feed before = some s →
    s.cuttable = true

/-- Whether it matters can be found out by cutting the text everywhere. -/
instance (r : Reply) : Decidable r.Steady :=
  decidable_of_iff
    (∀ before ∈ r.text.inits,
      ((start Response.codec.shape).feed before).all State.cuttable = true) <| by
    simp only [Reply.Steady, List.mem_inits, Option.all_eq_true]
    exact ⟨fun h before s hbefore hs => h before hbefore s hs,
      fun h before hbefore s hs => h before s hbefore hs⟩

/-- How a reply is sent: its text and the end of the line, in pieces of at least one byte. -/
structure Sending where
  reply : Reply
  pieces : List (List UInt8)
  pieces_ne_nil : ∀ piece ∈ pieces, piece ≠ []
  flatten_pieces : pieces.flatten = reply.text ++ [10]

/-- What comes of a sending in a stream. -/
def Sending.deliveries (s : Sending) : List Delivery :=
  s.pieces.map .bytes

/-- A stream over which sendings arrive, and nothing else. -/
def Stream.ofSendings (sendings : List Sending) : Stream :=
  { reads := sendings.flatMap Sending.deliveries }

/-! ## Beginnings of a reply -/

/-- The shape of a response is plain. -/
theorem plain_response : Response.codec.shape.Plain := by
  have herror : ResponseError.codec.shape.Plain := by
    refine .record fun f hf => ?_
    simp only [Codec.Fields.defaulted, Codec.Fields.add, Codec.Fields.of, List.nil_append,
      List.cons_append, List.mem_cons, List.not_mem_nil, or_false] at hf
    rcases hf with rfl | rfl
    · exact .whole (by decide) (by decide)
    · exact .text
  refine .record fun f hf => ?_
  simp only [Codec.Fields.nullable, Codec.Fields.required, Codec.Fields.defaulted,
    Codec.Fields.add, Codec.Fields.of, List.nil_append, List.cons_append, List.mem_cons,
    List.not_mem_nil, or_false] at hf
  rcases hf with rfl | rfl | rfl | rfl
  · exact .nullable .text
  · exact .whole (by decide) (by decide)
  · exact .nullable herror
  · exact .nullable .any

/-- The reader of a response after the brace that opens it. -/
theorem exists_step_start :
    ∃ t, (start Response.codec.shape).step 123 = .reading t ∧ t.Plain := by
  refine ⟨_, rfl, ⟨⟨nofun, ?_⟩, trivial⟩⟩
  have hshape := plain_response
  rintro f (_ | ⟨_, ⟨⟩⟩)
  cases hshape with
  | record hfields => exact ⟨hfields, nofun⟩

/-- A response is found where its value is. -/
theorem read_eq_found_iff {bs rest : List UInt8} {response : Response} :
    Response.codec.read bs = .found response rest ↔
      ∃ v, (start Response.codec.shape).read bs = .found v rest ∧
        Response.codec.decode v = some response := by
  unfold Codec.read Json.readAs
  cases (start Response.codec.shape).read bs with
  | found v left =>
    simp only
    cases hdecode : Response.codec.decode v with
    | none => simp [hdecode]
    | some a => simp [hdecode, and_comm]
  | truncated | malformed | unfit => simp

namespace Reply

variable {r : Reply} {before : List UInt8}

theorem exists_text_eq (r : Reply) : ∃ bs, r.text = 123 :: bs := by
  have hhead := r.head
  cases htext : r.text with
  | nil =>
    rw [htext] at hhead
    cases hhead
  | cons b bs =>
    rw [htext] at hhead
    cases hhead
    exact ⟨bs, rfl⟩

/-- After the brace of a reply the reader stands inside of its object, and stays there. -/
theorem plain_of_feed (hbefore : before <+: r.text) (hnil : before ≠ []) {t : State}
    (h : (start Response.codec.shape).feed before = some t) : t.Plain := by
  obtain ⟨bs, htext⟩ := r.exists_text_eq
  obtain ⟨u, hstep, hu⟩ := exists_step_start
  cases before with
  | nil => exact absurd rfl hnil
  | cons b before =>
    rw [htext, List.cons_prefix_cons] at hbefore
    obtain ⟨v, hstep', hfeed⟩ := State.feed_cons_eq_some h
    rw [hbefore.1, hstep] at hstep'
    cases hstep'
    exact State.plain_of_feed hu hfeed

/-- After the beginning of a reply the reader goes on to the rest. -/
theorem exists_feed (hbefore : before <+: r.text) (hne : before ≠ r.text) :
    ∃ t v after,
      (start Response.codec.shape).feed before = some t ∧ t.read after = .found v [] := by
  obtain ⟨after, hafter⟩ := hbefore
  obtain ⟨v, hread, -⟩ := read_eq_found_iff.1 r.reads
  have hafternil : after ≠ [] := by
    rintro rfl
    exact hne (by simpa using hafter)
  rw [← hafter] at hread
  obtain ⟨t, hfeed⟩ := State.exists_feed_of_read hread hafternil
  refine ⟨t, v, after, hfeed, ?_⟩
  rw [← State.read_append hfeed]
  exact hread

/-- More of a steady reply is waited for, wherever it is cut. -/
theorem Steady.read_eq (h : r.Steady) (hbefore : before <+: r.text) (hne : before ≠ r.text) :
    Response.codec.read before = .truncated := by
  suffices hstart : (start Response.codec.shape).read before = .truncated by
    rw [Codec.read, Json.readAs, hstart]
  by_cases hnil : before = []
  · rw [hnil]
    rfl
  · obtain ⟨t, v, after, hfeed, hread⟩ := exists_feed hbefore hne
    rw [State.read_of_feed hfeed]
    exact State.atEnd_of_cuttable (plain_of_feed hbefore hnil hfeed)
      (h before t hbefore hfeed) hread

/-- A reply that is not steady has a beginning that cannot be read. -/
theorem exists_malformed (h : ¬ r.Steady) :
    ∃ before, before <+: r.text ∧ before ≠ r.text ∧ Response.codec.read before = .malformed := by
  simp only [Steady, not_forall] at h
  obtain ⟨before, t, hbefore, hfeed, hcut⟩ := h
  rw [Bool.not_eq_true] at hcut
  have hmalformed : Response.codec.read before = .malformed := by
    rw [Codec.read, Json.readAs, State.read_of_feed hfeed, State.atEnd_of_not_cuttable hcut]
  refine ⟨before, hbefore, ?_, hmalformed⟩
  rintro rfl
  rw [r.reads] at hmalformed
  cases hmalformed

/-- No beginning of a reply is taken for a response. -/
theorem read_ne_found (hbefore : before <+: r.text) (hne : before ≠ r.text) {response : Response}
    {rest : List UInt8} : Response.codec.read before ≠ .found response rest := by
  intro hfound
  obtain ⟨v, hread, -⟩ := read_eq_found_iff.1 hfound
  by_cases hnil : before = []
  · rw [hnil] at hread
    cases hread
  · obtain ⟨t, -, -, hfeed, -⟩ := exists_feed hbefore hne
    rw [State.read_of_feed hfeed] at hread
    exact State.atEnd_ne_found (plain_of_feed hbefore hnil hfeed) hread

/-- What comes after a reply has no part in it. -/
theorem read_append (r : Reply) (more : List UInt8) :
    Response.codec.read (r.text ++ more) = .found r.response more := by
  obtain ⟨bs, htext⟩ := r.exists_text_eq
  obtain ⟨u, hstep, hu⟩ := exists_step_start
  obtain ⟨v, hread, hdecode⟩ := read_eq_found_iff.1 r.reads
  refine read_eq_found_iff.2 ⟨v, ?_, hdecode⟩
  rw [htext, State.read, hstep] at hread
  rw [htext, List.cons_append, State.read, hstep]
  exact State.read_append_of_found hu hread more

end Reply

/-! ## Reading pieces -/

/-- The next read of pieces gets some of them, in order. -/
theorem Stream.read_pieces {s : Stream} {room : Nat} {pieces : List (List UInt8)}
    {rest : List Delivery} (hreads : s.reads = pieces.map .bytes ++ rest)
    (hpieces : ∀ piece ∈ pieces, piece ≠ []) (hnil : pieces ≠ []) (hroom : 0 < room) :
    ∃ (b : UInt8) (bs : List UInt8) (left : List (List UInt8)),
      s.read room = (.bytes (b :: bs), { s with reads := left.map .bytes ++ rest }) ∧
      (b :: bs) ++ left.flatten = pieces.flatten ∧ (b :: bs).length ≤ room ∧
        ∀ piece ∈ left, piece ≠ [] := by
  cases pieces with
  | nil => exact absurd rfl hnil
  | cons piece pieces =>
    obtain ⟨hpiece, hothers⟩ := List.forall_mem_cons.1 hpieces
    rw [List.map_cons, List.cons_append] at hreads
    cases piece with
    | nil => exact absurd rfl hpiece
    | cons c cs =>
      by_cases hfits : (c :: cs).length ≤ room
      · refine ⟨c, cs, pieces, ?_, rfl, hfits, hothers⟩
        simp only [read, hreads, hfits, if_true]
      · obtain ⟨room, rfl⟩ := Nat.exists_eq_succ_of_ne_zero hroom.ne'
        refine ⟨c, cs.take room, cs.drop room :: pieces, ?_, ?_, ?_, ?_⟩
        · simp only [read, hreads, hfits, if_false]
          rfl
        · rw [List.flatten_cons, List.flatten_cons, ← List.append_assoc, List.cons_append,
            List.take_append_drop]
        · exact List.length_take_le (room + 1) (c :: cs)
        · refine List.forall_mem_cons.2 ⟨?_, hothers⟩
          rw [List.length_cons] at hfits
          rw [Ne, List.drop_eq_nil_iff]
          omega

/-- How receiving goes on after a read. -/
def resume (bound : UInt64) (room : Nat) (done : List UInt8) (s : Stream) :
    Codec.Outcome Response → Except LinkFailure Response × Stream
  | .found response _ => (.ok response, s)
  | .truncated => receive bound room done s
  | .malformed | .unfit => (.error .malformedResponse, s)

theorem receive_eq {bound : UInt64} {room : Nat} {done bs : List UInt8} {b : UInt8} {s t : Stream}
    (hread : s.read (enlarge room done.length - done.length) = (.bytes (b :: bs), t))
    (hbound : (done ++ b :: bs).length ≤ bound.toNat) :
    receive bound room done s = resume bound (enlarge room done.length) (done ++ b :: bs) t
      (Response.codec.read (done ++ b :: bs)) := by
  rw [receive]
  split
  · rename_i h
    rw [hread] at h
    cases h
  · rename_i h
    rw [hread] at h
    cases h
  · rename_i h
    rw [hread] at h
    cases h
    rw [if_neg (Nat.not_lt.2 hbound)]
    cases Response.codec.read (done ++ b :: bs) <;> rfl

/-- There is room for more bytes. -/
theorem lt_enlarge {room used : Nat} (hroom : 0 < room) (hused : used ≤ room) :
    used < enlarge room used := by
  unfold enlarge
  split <;> omega

/-- A client receives a text: some of it is done, and the rest is there in pieces. -/
structure Receiving (text : List UInt8) (rest : List Delivery) (room : Nat) (done : List UInt8)
    (pieces : List (List UInt8)) (s : Stream) : Prop where
  reads : s.reads = pieces.map .bytes ++ rest
  pieces_ne_nil : ∀ piece ∈ pieces, piece ≠ []
  whole : done ++ pieces.flatten = text
  room_pos : 0 < room
  room_le : done.length ≤ room

/-- One read of a text that fits the bound. -/
theorem Receiving.next {text done : List UInt8} {rest : List Delivery} {room : Nat}
    {pieces : List (List UInt8)} {s : Stream} {bound : UInt64}
    (h : Receiving text rest room done pieces s) (hmore : done ≠ text)
    (hbound : text.length ≤ bound.toNat) :
    ∃ got left, got ≠ [] ∧
      Receiving text rest (enlarge room done.length) (done ++ got) left
        { s with reads := left.map .bytes ++ rest } ∧
      receive bound room done s = resume bound (enlarge room done.length) (done ++ got)
        { s with reads := left.map .bytes ++ rest } (Response.codec.read (done ++ got)) := by
  have hroom := lt_enlarge h.room_pos h.room_le
  have hnil : pieces ≠ [] := by
    rintro rfl
    exact hmore (by simpa using h.whole)
  obtain ⟨b, bs, left, hread, hflatten, hlength, hleft⟩ :=
    Stream.read_pieces h.reads h.pieces_ne_nil hnil (Nat.sub_pos_of_lt hroom)
  have hwhole : (done ++ b :: bs) ++ left.flatten = text := by
    rw [List.append_assoc, hflatten, h.whole]
  refine ⟨b :: bs, left, nofun, ⟨rfl, hleft, hwhole, Nat.zero_lt_of_lt hroom, ?_⟩, ?_⟩
  · rw [List.length_append]
    omega
  · refine receive_eq hread (Nat.le_trans ?_ hbound)
    rw [← hwhole]
    exact List.IsPrefix.length_le (List.prefix_append _ _)

/-- After a read less of the text is there. -/
theorem Receiving.shorter {text done got : List UInt8} {rest : List Delivery} {room room' : Nat}
    {pieces left : List (List UInt8)} {s t : Stream}
    (h : Receiving text rest room done pieces s) (hgot : got ≠ [])
    (hnext : Receiving text rest room' (done ++ got) left t) :
    left.flatten.length < pieces.flatten.length := by
  have hwhole := congrArg List.length (h.whole.trans hnext.whole.symm)
  have hpos := List.length_pos_of_ne_nil hgot
  simp only [List.length_append] at hwhole
  omega

/-! ### With the end of the line before it -/

/-- The end of the line before it, which may be left over, has no part in a reply. -/
theorem read_lead {lead : List UInt8} (hlead : lead = [] ∨ lead = [10]) (bs : List UInt8) :
    Response.codec.read (lead ++ bs) = Response.codec.read bs := by
  rcases hlead with rfl | rfl
  · rfl
  · have hblank : ∀ b ∈ [10], isSpace b = true := List.forall_mem_singleton.2 rfl
    rw [Codec.read, Codec.read, Json.readAs, Json.readAs, Json.Reader.read_start_append hblank]

theorem length_lead {lead : List UInt8} (hlead : lead = [] ∨ lead = [10]) : lead.length ≤ 1 := by
  rcases hlead with rfl | rfl <;> decide

/-- What is done before a reply is complete is read like a beginning of the reply. -/
theorem Reply.exists_before (r : Reply) {lead done : List UInt8} (hlead : lead = [] ∨ lead = [10])
    (hdone : done <+: lead ++ r.text) (hne : done ≠ lead ++ r.text) :
    ∃ before, before <+: r.text ∧ before ≠ r.text ∧
      Response.codec.read done = Response.codec.read before := by
  rcases hlead with rfl | rfl
  · exact ⟨done, hdone, hne, rfl⟩
  · cases done with
    | nil =>
      obtain ⟨bs, htext⟩ := r.exists_text_eq
      exact ⟨[], List.nil_prefix, by rw [htext]; nofun, rfl⟩
    | cons b done =>
      rw [List.singleton_append, List.cons_prefix_cons] at hdone
      obtain ⟨rfl, hdone⟩ := hdone
      refine ⟨done, hdone, ?_, read_lead (.inr rfl) done⟩
      rintro rfl
      exact hne rfl

/-- Pieces that hold at most the end of a line. -/
theorem deliveries_of_flatten {pieces : List (List UInt8)} (hpieces : ∀ piece ∈ pieces, piece ≠ [])
    (h : pieces.flatten = [] ∨ pieces.flatten = [10]) :
    pieces.map Delivery.bytes = [] ∨ pieces.map Delivery.bytes = [.bytes [10]] := by
  cases pieces with
  | nil => exact .inl rfl
  | cons piece pieces =>
    obtain ⟨hpiece, hothers⟩ := List.forall_mem_cons.1 hpieces
    rw [List.flatten_cons] at h
    -- The first piece is the end of the line, so no other one can hold anything.
    have hrest : pieces.flatten = [] ∧ piece = [10] := by
      cases piece with
      | nil => exact absurd rfl hpiece
      | cons b piece =>
        rcases h with h | h
        · cases h
        · obtain ⟨rfl, hnil⟩ := List.cons.inj h
          obtain ⟨rfl, hnil⟩ := List.append_eq_nil_iff.1 hnil
          exact ⟨hnil, rfl⟩
    cases pieces with
    | nil => exact .inr (by rw [hrest.2]; rfl)
    | cons other pieces =>
      have hnil := (List.append_eq_nil_iff.1 hrest.1).1
      exact absurd hnil (hothers other List.mem_cons_self)

/-- A steady reply is received, however it comes in pieces. At most the end of its line is left. -/
theorem receive_of_steady {r : Reply} (hsteady : r.Steady) {bound : UInt64}
    (hbound : r.text.length + 2 ≤ bound.toNat) {lead : List UInt8}
    (hlead : lead = [] ∨ lead = [10]) {rest : List Delivery} {room : Nat} {done : List UInt8}
    {pieces : List (List UInt8)} {s : Stream}
    (h : Receiving (lead ++ r.text ++ [10]) rest room done pieces s)
    (hdone : done.length < (lead ++ r.text).length) :
    ∃ left, (left = [] ∨ left = [.bytes [10]]) ∧
      receive bound room done s = (.ok r.response, { s with reads := left ++ rest }) := by
  -- By induction on the bytes that are not read yet.
  induction hn : pieces.flatten.length using Nat.strong_induction_on
    generalizing room done pieces s with
  | _ n ih =>
  have hmore : done ≠ lead ++ r.text ++ [10] := by
    rintro rfl
    rw [List.length_append] at hdone
    omega
  have hfits : (lead ++ r.text ++ [10]).length ≤ bound.toNat := by
    have hlength := length_lead hlead
    simp only [List.length_append, List.length_singleton]
    omega
  obtain ⟨got, left, hgot, hnext, hreceive⟩ := h.next hmore hfits
  rw [hreceive]
  have hbegins : done ++ got <+: lead ++ r.text ++ [10] := ⟨left.flatten, hnext.whole⟩
  rcases Nat.lt_or_ge (done ++ got).length (lead ++ r.text).length with hlt | hge
  · -- The reply is not complete yet.
    have hbefore : done ++ got <+: lead ++ r.text :=
      List.prefix_of_prefix_length_le hbegins (List.prefix_append _ _) (Nat.le_of_lt hlt)
    obtain ⟨before, hbefore, hne, hread⟩ := r.exists_before hlead hbefore
      (fun heq => Nat.lt_irrefl _ (heq ▸ hlt))
    rw [hread, hsteady.read_eq hbefore hne]
    exact ih _ (hn ▸ h.shorter hgot hnext) hnext hlt rfl
  · -- The reply is complete, and perhaps the end of its line has come with it.
    obtain ⟨more, hdone⟩ := List.prefix_of_prefix_length_le (List.prefix_append _ _) hbegins hge
    have hrest : more ++ left.flatten = [10] := by
      have hwhole := hnext.whole
      rw [← hdone, List.append_assoc] at hwhole
      exact List.append_cancel_left hwhole
    rw [← hdone, List.append_assoc, read_lead hlead, r.read_append]
    refine ⟨left.map .bytes, deliveries_of_flatten hnext.pieces_ne_nil ?_, rfl⟩
    cases more with
    | nil => exact .inr hrest
    | cons b more => exact .inl (List.append_eq_nil_iff.1 (List.cons.inj hrest).2).2

/-- A reply is given up, at the latest, when a beginning that cannot be read has come. -/
theorem receive_of_malformed {r : Reply} {before : List UInt8} (hbefore : before <+: r.text)
    (hne : before ≠ r.text) (hmalformed : Response.codec.read before = .malformed)
    {bound : UInt64} (hbound : r.text.length + 2 ≤ bound.toNat) {lead : List UInt8}
    (hlead : lead = [] ∨ lead = [10]) {rest : List Delivery} {room : Nat} {done : List UInt8}
    {pieces : List (List UInt8)} {s : Stream}
    (h : Receiving (lead ++ before) rest room done pieces s) (hdone : done ≠ lead ++ before) :
    ∃ t, receive bound room done s = (.error .malformedResponse, t) := by
  -- By induction on the bytes that are not read yet.
  induction hn : pieces.flatten.length using Nat.strong_induction_on
    generalizing room done pieces s with
  | _ n ih =>
  have hfits : (lead ++ before).length ≤ bound.toNat := by
    have hlength := length_lead hlead
    have hle := hbefore.length_le
    rw [List.length_append]
    omega
  obtain ⟨got, left, hgot, hnext, hreceive⟩ := h.next hdone hfits
  rw [hreceive]
  by_cases hall : done ++ got = lead ++ before
  · rw [hall, read_lead hlead, hmalformed]
    exact ⟨_, rfl⟩
  · have hbegins : done ++ got <+: lead ++ before := ⟨left.flatten, hnext.whole⟩
    have hlt : (done ++ got).length < (lead ++ r.text).length := by
      have hshort := Nat.lt_of_le_of_ne hbefore.length_le (mt hbefore.eq_of_length hne)
      have hle := hbegins.length_le
      simp only [List.length_append] at hle ⊢
      omega
    obtain ⟨before', hbefore', hne', hread⟩ := r.exists_before hlead
      (hbegins.trans ((List.prefix_append_right_inj lead).2 hbefore))
      (fun heq => Nat.lt_irrefl _ (heq ▸ hlt))
    rw [hread]
    cases houtcome : Response.codec.read before' with
    | found => exact absurd houtcome (Reply.read_ne_found hbefore' hne')
    | malformed | unfit => exact ⟨_, rfl⟩
    | truncated => exact ih _ (hn ▸ h.shorter hgot hnext) hnext hall rfl

/-! ## One call -/

variable {bound : UInt64} {request : Request} {s t : Stream}

/-- A stream that takes what is written takes the line of a request. -/
theorem send_of_open (hwrites : s.writes = []) (hflushes : s.flushes = []) :
    send request s = (.ok (), { s with written := s.written ++ Text.bytes request.line }) := by
  obtain ⟨reads, writes, taken, flushes, written⟩ := s
  obtain rfl : writes = [] := hwrites
  obtain rfl : flushes = [] := hflushes
  rfl

/-- After that the exchange is decided by what is received. -/
theorem exchange_of_ok {response : Response} (hwrites : s.writes = []) (hflushes : s.flushes = [])
    (h : receive bound initialRoom [] { s with written := s.written ++ Text.bytes request.line } =
      (.ok response, t)) : exchange bound request s = (response.answer request.id, t) := by
  simp only [exchange, send_of_open hwrites hflushes, h]

theorem exchange_of_error {failure : LinkFailure} (hwrites : s.writes = [])
    (hflushes : s.flushes = [])
    (h : receive bound initialRoom [] { s with written := s.written ++ Text.bytes request.line } =
      (.error failure, t)) : exchange bound request s = (.error (.unreachable failure), t) := by
  simp only [exchange, send_of_open hwrites hflushes, h]

/-- A response with the number of the call settles it. -/
theorem Response.answer_settled {r : Response} {id : UInt64} (h : r.id = id) :
    (r.answer id).Settled := by
  rw [answer, if_neg (not_not.2 h)]
  repeat' split
  all_goals constructor

/-- The client has a stream that takes what is written, and over which some deliveries come, perhaps
after the end of a line. -/
structure Client.Awaits (c : Client) (deliveries : List Delivery) (s : Stream) : Prop where
  stream : c.stream = some s
  writes : s.writes = []
  flushes : s.flushes = []
  reads : ∃ left, (left = [] ∨ left = [.bytes [10]]) ∧ s.reads = left ++ deliveries

/-- When a client begins to receive, the end of a line may come first. -/
theorem Client.Awaits.exists_receiving {c : Client} {pieces : List (List UInt8)}
    {rest : List Delivery} (h : c.Awaits (pieces.map .bytes ++ rest) s)
    (hpieces : ∀ piece ∈ pieces, piece ≠ []) (written : List UInt8) :
    ∃ lead pieces', (lead = [] ∨ lead = [10]) ∧
      Receiving (lead ++ pieces.flatten) rest initialRoom [] pieces' { s with written } := by
  obtain ⟨left, hleft | hleft, hreads⟩ := h.reads
  · rw [hleft] at hreads
    exact ⟨[], pieces, .inl rfl, hreads, hpieces, rfl, by decide, by decide⟩
  · rw [hleft] at hreads
    refine ⟨[10], [10] :: pieces, .inr rfl, hreads, ?_, rfl, by decide, by decide⟩
    exact List.forall_mem_cons.2 ⟨nofun, hpieces⟩

/-- A contact over a stream has the answer of the exchange. If the answer settles the call, the
stream stays, and if it does not, there is no stream afterwards. -/
theorem Client.contact_of_exchange {c : Client} {s t : Stream} {answer : Answer} (call : NamedCall)
    (hs : c.stream = some s)
    (h : exchange c.bound ⟨c.nextId, call.method, call.params⟩ s = (answer, t)) :
    (c.contact call).answer = answer ∧ (c.contact call).after.bound = c.bound ∧
      (c.contact call).after.stream = if keepsStream answer then some t else none := by
  have hcall := callNamed_of_ok (connect_of_stream hs) h
  obtain ⟨counters, hnote⟩ := note_eq
    ({ c with issued := c.nextId, counters := c.counters.countCall call.method }.putBack t answer)
    call.method answer
  rw [hnote] at hcall
  cases hkeeps : keepsStream answer with
  | true =>
    rw [putBack, if_pos hkeeps] at hcall
    simp [contact, hcall]
  | false =>
    rw [putBack, if_neg (by simp [hkeeps])] at hcall
    simp [contact, hcall]

/-- A contact in which a steady reply comes in pieces. -/
theorem Client.contact_of_steady {c : Client} {sending : Sending} {rest : List Delivery}
    (hc : c.Awaits (sending.deliveries ++ rest) s) (hsteady : sending.reply.Steady)
    (hbound : sending.reply.text.length + 2 ≤ c.bound.toNat)
    (hid : sending.reply.response.id = c.nextId) (call : NamedCall) :
    (c.contact call).answer = sending.reply.response.answer sending.reply.response.id ∧
      (∃ t, (c.contact call).after.Awaits rest t) ∧ (c.contact call).after.bound = c.bound := by
  let request : Request := ⟨c.nextId, call.method, call.params⟩
  obtain ⟨lead, pieces, hlead, hreceiving⟩ :=
    hc.exists_receiving sending.pieces_ne_nil (s.written ++ Text.bytes request.line)
  rw [sending.flatten_pieces, ← List.append_assoc] at hreceiving
  have hdone : ([] : List UInt8).length < (lead ++ sending.reply.text).length := by
    obtain ⟨bs, htext⟩ := sending.reply.exists_text_eq
    simp only [htext, List.length_append, List.length_cons, List.length_nil]
    omega
  obtain ⟨left, hleft, hreceive⟩ := receive_of_steady hsteady hbound hlead hreceiving hdone
  obtain ⟨hanswer, hbound', hstream⟩ :=
    contact_of_exchange call hc.stream (exchange_of_ok hc.writes hc.flushes hreceive)
  rw [if_pos (keepsStream_of_settled (Response.answer_settled hid))] at hstream
  exact ⟨by rw [hid]; exact hanswer,
    ⟨_, hstream, hc.writes, hc.flushes, left, hleft, rfl⟩, hbound'⟩

/-- A contact in which a reply is cut where its beginning cannot be read. -/
theorem Client.contact_of_malformed {c : Client} {r : Reply} {before : List UInt8}
    {rest : List Delivery} (hbefore : before <+: r.text) (hne : before ≠ r.text)
    (hmalformed : Response.codec.read before = .malformed)
    (hc : c.Awaits (.bytes before :: rest) s) (hbound : r.text.length + 2 ≤ c.bound.toNat)
    (call : NamedCall) : (c.contact call).after.stream = none := by
  let request : Request := ⟨c.nextId, call.method, call.params⟩
  have hnil : before ≠ [] := by
    rintro rfl
    cases hmalformed
  have hpieces : ∀ piece ∈ [before], piece ≠ [] := by simpa
  have hc' : c.Awaits ([before].map .bytes ++ rest) s := hc
  obtain ⟨lead, pieces, hlead, hreceiving⟩ :=
    hc'.exists_receiving hpieces (s.written ++ Text.bytes request.line)
  rw [List.flatten_singleton] at hreceiving
  have hdone : [] ≠ lead ++ before := by
    simp [hnil]
  obtain ⟨t, hreceive⟩ :=
    receive_of_malformed hbefore hne hmalformed hbound hlead hreceiving hdone
  obtain ⟨-, -, hstream⟩ :=
    contact_of_exchange call hc.stream (exchange_of_error hc.writes hc.flushes hreceive)
  exact hstream

/-! ## Conversations -/

/-- The replies bear the numbers of the calls that come after `issued` calls. -/
def Numbered (issued : UInt64) (replies : List Reply) : Prop :=
  ∀ i r, replies[i]? = some r → r.response.id = issued + UInt64.ofNat (i + 1)

theorem Numbered.head {issued : UInt64} {r : Reply} {replies : List Reply}
    (h : Numbered issued (r :: replies)) : r.response.id = issued + 1 :=
  h 0 r rfl

theorem Numbered.tail {issued : UInt64} {r : Reply} {replies : List Reply}
    (h : Numbered issued (r :: replies)) : Numbered (issued + 1) replies := by
  intro i r' hr'
  have hone : (1 : UInt64) = UInt64.ofNat 1 := rfl
  rw [h (i + 1) r' hr', hone, UInt64.add_assoc, ← UInt64.ofNat_add, Nat.add_comm 1]

/-- Every reply is heard in its contact, and the stream stays in use. -/
structure Heard (contacts : List Contact) (replies : List Reply) : Prop where
  answers : contacts.map Contact.answer = replies.map fun r => r.response.answer r.response.id
  streams : ∀ x ∈ contacts, x.after.stream.isSome = true

namespace Client

/-- Steady replies are heard, however they come in pieces. -/
theorem heard_of_steady {replies : List Reply} (hsteady : ∀ r ∈ replies, r.Steady)
    {sendings : List Sending} (hsendings : sendings.map Sending.reply = replies) {c : Client}
    {s : Stream} (hc : c.Awaits (sendings.flatMap Sending.deliveries) s)
    (hbound : ∀ r ∈ replies, r.text.length + 2 ≤ c.bound.toNat)
    (hnumbered : Numbered c.issued replies) {calls : List NamedCall}
    (hcalls : calls.length = replies.length) : Heard (c.converse calls) replies := by
  induction replies generalizing sendings c s calls with
  | nil =>
    obtain rfl := List.length_eq_zero_iff.1 hcalls
    refine ⟨rfl, fun x hx => ?_⟩
    cases hx
  | cons r replies ih =>
    cases calls with
    | nil => cases hcalls
    | cons call calls =>
      cases sendings with
      | nil => cases hsendings
      | cons sending sendings =>
        obtain ⟨rfl, hothers⟩ := List.cons.inj hsendings
        obtain ⟨hhead, htail⟩ := List.forall_mem_cons.1 hsteady
        obtain ⟨hfits, hfits'⟩ := List.forall_mem_cons.1 hbound
        rw [List.flatMap_cons] at hc
        obtain ⟨hanswer, ⟨t, hafter⟩, hbound'⟩ :=
          contact_of_steady hc hhead hfits hnumbered.head call
        have hissued : (c.contact call).after.issued = c.issued + 1 :=
          (c.contact_goes call).2.issued
        have hrest := ih htail hothers hafter (hbound' ▸ hfits') (hissued ▸ hnumbered.tail)
          (Nat.succ.inj hcalls)
        exact ⟨congrArg₂ List.cons hanswer hrest.answers,
          List.forall_mem_cons.2 ⟨by rw [hafter.stream]; rfl, hrest.streams⟩⟩

end Client

/-- A reply that is sent in one piece. -/
def Sending.inOne (r : Reply) : Sending where
  reply := r
  pieces := [r.text ++ [10]]
  pieces_ne_nil := by simp
  flatten_pieces := by simp

/-- A reply that is sent in two pieces. -/
def Sending.inTwo (r : Reply) (before after : List UInt8) (h : before ++ after = r.text)
    (hbefore : before ≠ []) : Sending where
  reply := r
  pieces := [before, after ++ [10]]
  pieces_ne_nil := by simp [hbefore]
  flatten_pieces := by simp [← h]

namespace Client

/-- If a reply is not steady there is a way to send the replies so that the stream is given up. -/
theorem exists_lost {replies : List Reply} (h : ¬ ∀ r ∈ replies, r.Steady) :
    ∃ sendings : List Sending, sendings.map Sending.reply = replies ∧
      ∀ (c : Client) (s : Stream) (calls : List NamedCall),
        c.Awaits (sendings.flatMap Sending.deliveries) s →
        (∀ r ∈ replies, r.text.length + 2 ≤ c.bound.toNat) → Numbered c.issued replies →
        calls.length = replies.length → ∃ x ∈ c.converse calls, x.after.stream = none := by
  induction replies with
  | nil => exact absurd (by simp) h
  | cons r replies ih =>
    by_cases hsteady : r.Steady
    · -- The reply is heard, and one after it is lost.
      have hothers : ¬ ∀ r ∈ replies, r.Steady := fun hall =>
        h (List.forall_mem_cons.2 ⟨hsteady, hall⟩)
      obtain ⟨sendings, hsendings, hlost⟩ := ih hothers
      refine ⟨.inOne r :: sendings, congrArg (r :: ·) hsendings, ?_⟩
      intro c s calls hc hbound hnumbered hcalls
      cases calls with
      | nil => cases hcalls
      | cons call calls =>
        obtain ⟨hfits, hfits'⟩ := List.forall_mem_cons.1 hbound
        rw [List.flatMap_cons] at hc
        obtain ⟨-, ⟨t, hafter⟩, hbound'⟩ :=
          contact_of_steady hc hsteady hfits hnumbered.head call
        have hissued : (c.contact call).after.issued = c.issued + 1 :=
          (c.contact_goes call).2.issued
        obtain ⟨x, hx, hnone⟩ := hlost _ t calls hafter (hbound' ▸ hfits')
          (hissued ▸ hnumbered.tail) (Nat.succ.inj hcalls)
        exact ⟨x, List.mem_cons_of_mem _ hx, hnone⟩
    · -- The reply is cut where its beginning cannot be read.
      obtain ⟨before, ⟨after, htext⟩, hne, hmalformed⟩ := Reply.exists_malformed hsteady
      have hnil : before ≠ [] := by
        rintro rfl
        cases hmalformed
      refine ⟨.inTwo r before after htext hnil :: replies.map .inOne, ?_, ?_⟩
      · have hinOne : replies.map (Sending.reply ∘ Sending.inOne) = replies := List.map_id replies
        rw [List.map_cons, List.map_map, hinOne]
        rfl
      · intro c s calls hc hbound _ hcalls
        cases calls with
        | nil => cases hcalls
        | cons call calls =>
          refine ⟨c.contact call, List.mem_cons_self, ?_⟩
          exact contact_of_malformed ⟨after, htext⟩ hne hmalformed hc
            (hbound r List.mem_cons_self) call

end Client

/-- Replies are heard by a client over a given stream, however they come in pieces, exactly if it
does not matter where their texts are cut. -/
theorem converse_heard_iff (calls : List NamedCall) (replies : List Reply) (bound : UInt64)
    (hcalls : calls.length = replies.length) (hnumbered : Numbered 0 replies)
    (hbound : ∀ r ∈ replies, r.text.length + 2 ≤ bound.toNat) :
    (∀ sendings : List Sending, sendings.map Sending.reply = replies →
        Heard ((Client.ofStream (.ofSendings sendings) bound).converse calls) replies) ↔
      ∀ r ∈ replies, r.Steady := by
  have hawaits (sendings : List Sending) : (Client.ofStream (.ofSendings sendings) bound).Awaits
      (sendings.flatMap Sending.deliveries) (.ofSendings sendings) :=
    ⟨rfl, rfl, rfl, [], .inl rfl, rfl⟩
  constructor
  · intro hheard
    by_contra hsteady
    obtain ⟨sendings, hsendings, hlost⟩ := Client.exists_lost hsteady
    obtain ⟨x, hx, hnone⟩ := hlost _ _ calls (hawaits sendings) hbound hnumbered hcalls
    have hsome := (hheard sendings hsendings).streams x hx
    rw [hnone] at hsome
    cases hsome
  · intro hsteady sendings hsendings
    exact Client.heard_of_steady hsteady hsendings (hawaits sendings) hbound hnumbered hcalls

/-- A single reply has the number of the first call. -/
theorem numbered_singleton {r : Reply} (h : r.response.id = 1) : Numbered 0 [r] := by
  intro i r' hr'
  cases i with
  | zero =>
    cases hr'
    exact h
  | succ i => cases hr'

/-- A reply with an escape, a character of two bytes, a number and one that is passed over, all of
which can be cut. -/
def Reply.granted : Reply where
  text := Text.bytes "\x7b\"id\":1,\"seq\":12,\"result\":[\"\\u00e9ü\",-3]\x7d"
  response := { id := 1, result := some (.arr [.str "éü", .ofInt (-3)]) }
  head := rfl
  reads := rfl

/-- A reply that is sent byte by byte. -/
def Sending.inBytes (r : Reply) : Sending where
  reply := r
  pieces := (r.text ++ [10]).map fun b => [b]
  pieces_ne_nil := by simp only [List.forall_mem_map, ne_eq, List.cons_ne_nil, not_false_eq_true,
    implies_true]
  flatten_pieces := by rw [← List.flatMap_def, List.flatMap_singleton']

/-- It is heard byte by byte. -/
theorem heard_granted :
    Numbered 0 [Reply.granted] ∧ Reply.granted.text.length + 2 ≤ (100 : UInt64).toNat ∧
      Reply.granted.Steady ∧
        Heard ((Client.ofStream (.ofSendings [.inBytes Reply.granted]) 100).converse
          [⟨"bdev_get_bdevs", none⟩]) [Reply.granted] := by
  have hnumbered : Numbered 0 [Reply.granted] := numbered_singleton rfl
  have hbound : Reply.granted.text.length + 2 ≤ (100 : UInt64).toNat := by decide +kernel
  have hsteady : Reply.granted.Steady := by decide +kernel
  refine ⟨hnumbered, hbound, hsteady, ?_⟩
  exact (converse_heard_iff _ [Reply.granted] 100 rfl hnumbered
    (List.forall_mem_singleton.2 hbound)).2
    (List.forall_mem_singleton.2 hsteady) [.inBytes Reply.granted] rfl

/-- A reply that declines a call and holds a number that is passed over. -/
def Reply.declined : Reply where
  text :=
    Text.bytes "\x7b\"jsonrpc\":\"2.0\",\"id\":1,\"error\":\x7b\"code\":-32602,\"data\":-" ++
      Text.bytes "5\x7d\x7d"
  response := { protocol := some "2.0", id := 1, error := some { code := -32602 } }
  head := rfl
  reads := rfl

/-- When it is cut after the minus it is not heard. -/
theorem not_heard_declined :
    let sending : Sending := .inTwo Reply.declined
      (Text.bytes "\x7b\"jsonrpc\":\"2.0\",\"id\":1,\"error\":\x7b\"code\":-32602,\"data\":-")
      (Text.bytes "5\x7d\x7d") rfl (by decide)
    Numbered 0 [Reply.declined] ∧ Reply.declined.text.length + 2 ≤ (100 : UInt64).toNat ∧
      ¬ Heard ((Client.ofStream (.ofSendings [sending]) 100).converse [⟨"bdev_get_bdevs", none⟩])
        [Reply.declined] := by
  intro sending
  refine ⟨numbered_singleton rfl, by decide +kernel, fun hheard => ?_⟩
  have hlost : ((Client.ofStream (.ofSendings [sending]) 100).contact
      ⟨"bdev_get_bdevs", none⟩).after.stream = none := by
    refine Client.contact_of_malformed (r := Reply.declined) ⟨Text.bytes "5\x7d\x7d", rfl⟩ ?_ rfl
      ⟨rfl, rfl, rfl, [], .inl rfl, rfl⟩ ?_ _
    · decide +kernel
    · decide +kernel
  have hsome := hheard.streams _ List.mem_cons_self
  rw [hlost] at hsome
  cases hsome

end StorageControl.Engine
