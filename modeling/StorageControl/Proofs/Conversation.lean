/-
# Answers go to the calls that asked for them

In a conversation the calls are numbered from one on, and what settles a call is an envelope with
its number among the bytes that were read for it. The stream on which a call was settled is used
for the next one. A stream on which a call was broken is never used again: a client that has an
address connects anew, and one that was given its stream is closed.
-/
import Mathlib.Data.List.Chain
import StorageControl.Proofs.Link

namespace StorageControl.Engine

/-! ## Connecting -/

namespace Client

variable {c : Client}

/-- A client that has a stream goes on with it. -/
theorem connect_of_stream {s : Stream} (h : c.stream = some s) : c.connect = (.ok s, c) := by
  simp only [connect, h]

/-- A client without address connects to nothing. -/
theorem connect_of_closed (h : c.stream = none) (ha : c.address = none) :
    c.connect = (.error .closed, c) := by
  simp only [connect, h, ha]

/-- A client without stream dials its address. -/
theorem connect_of_address {address : Address} (h : c.stream = none)
    (ha : c.address = some address) :
    c.connect = ((c.dial c.dialled).mapError (LinkFailure.connect address.print),
      { c with dialled := c.dialled + 1, stream := (c.dial c.dialled).toOption }) := by
  simp only [connect, h, ha]
  cases c.dial c.dialled with
  | ok s => rfl
  | error reason => simp [Except.mapError, Except.toOption]

/-- Connecting comes to a stream, or fails in the connection. -/
theorem connect_cases (c : Client) :
    (∃ s d, c.connect = (.ok s, { c with dialled := d, stream := some s })) ∨
      ∃ failure d, failure.OfLink ∧ c.stream = none ∧
        c.connect = (.error failure, { c with dialled := d }) := by
  rcases Option.eq_none_or_eq_some c.stream with hs | ⟨s, hs⟩
  · rcases Option.eq_none_or_eq_some c.address with ha | ⟨address, ha⟩
    · exact .inr ⟨.closed, c.dialled, trivial, hs, connect_of_closed hs ha⟩
    · rw [connect_of_address hs ha]
      cases c.dial c.dialled with
      | ok s => exact .inl ⟨s, c.dialled + 1, rfl⟩
      | error reason =>
        refine .inr ⟨.connect address.print reason, c.dialled + 1, trivial, hs, ?_⟩
        rw [hs]
        rfl
  · refine .inl ⟨s, c.dialled, ?_⟩
    rw [connect_of_stream hs, ← hs]

/-- Counting has no part in connecting. -/
theorem connect_counted (c : Client) (issued : UInt64) (counters : Counters) :
    { c with issued, counters }.connect = (c.connect.1, { c.connect.2 with issued, counters }) := by
  unfold connect
  split
  · rename_i hs
    simp only at hs
    simp only [hs]
  · rename_i hs ha
    simp only at hs ha
    simp only [hs, ha]
  · rename_i hs ha
    simp only at hs ha
    simp only [hs, ha]
    cases c.dial c.dialled <;> rfl

/-! ## One contact -/

/-- A call that cannot connect fails so. -/
theorem callNamed_of_error {failure : LinkFailure} {d : Client}
    (h : c.connect = (.error failure, d)) (method : String) (params : Option Json) :
    c.callNamed method params = (.error (.unreachable failure),
      { d with issued := c.nextId, counters := c.counters.countCall method }.note method
        (.error (.unreachable failure))) := by
  unfold callNamed
  simp only [connect_counted, h]

/-- A call over a stream has the answer of the exchange, which decides about the stream. -/
theorem callNamed_of_ok {s u : Stream} {d : Client} {answer : Answer}
    (h : c.connect = (.ok s, d)) {method : String} {params : Option Json}
    (hexchange : exchange d.bound ⟨c.nextId, method, params⟩ s = (answer, u)) :
    c.callNamed method params = (answer,
      ({ d with issued := c.nextId, counters := c.counters.countCall method }.putBack u
        answer).note method answer) := by
  unfold callNamed
  simp only [connect_counted, h, hexchange]

/-- A note of a failure changes nothing but the counters. -/
theorem note_eq (c : Client) (method : String) (answer : Answer) :
    ∃ counters, c.note method answer = { c with counters } := by
  unfold note
  repeat' split
  all_goals exact ⟨_, rfl⟩

theorem keepsStream_of_settled {answer : Answer} (h : answer.Settled) :
    keepsStream answer = true := by
  cases h <;> rfl

theorem keepsStream_of_broken {answer : Answer} (h : answer.Broken) :
    keepsStream answer = false := by
  cases h <;> rfl

end Client

namespace Contact

/-- What a client is set up with stays in a contact, and it has made one call more. -/
structure Carries (x : Contact) : Prop where
  address : x.after.address = x.before.address
  dial : x.after.dial = x.before.dial
  issued : x.after.issued = x.number
  dialled : x.after.dialled = x.before.connect.2.dialled

/-- How a contact goes. -/
inductive Goes (x : Contact) : Prop
  /-- There is no stream for the call. -/
  | unconnected {failure : LinkFailure} (hlink : failure.OfLink)
      (hopening : x.opening = .error failure) (hanswer : x.answer = .error (.unreachable failure))
      (hstream : x.after.stream = none) (hdropped : x.after.dropped = x.before.dropped)
  /-- The answer comes over the stream, which stays in use. -/
  | settled {s u : Stream} (hopening : x.opening = .ok s)
      (hwritten : u.written = s.written ++ s.accepted x.request.line)
      (hanswers : s.Answers x.request x.answer u) (hsettled : x.answer.Settled)
      (hstream : x.after.stream = some u) (hdropped : x.after.dropped = x.before.dropped)
  /-- The call is broken, and the stream is given up. -/
  | broken {s u : Stream} (hopening : x.opening = .ok s)
      (hwritten : u.written = s.written ++ s.accepted x.request.line)
      (hbroken : x.answer.Broken)
      (hstream : x.after.stream = none) (hdropped : x.after.dropped = u :: x.before.dropped)

end Contact

namespace Client

/-- A contact goes in one of these ways. -/
theorem contact_goes (c : Client) (call : NamedCall) :
    (c.contact call).Goes ∧ (c.contact call).Carries := by
  rcases c.connect_cases with ⟨s, d, hconnect⟩ | ⟨failure, d, hlink, hstream, hconnect⟩
  · -- The exchange over the stream decides.
    cases hexchange : exchange c.bound ⟨c.nextId, call.method, call.params⟩ s with
    | mk answer u =>
      have hcall := callNamed_of_ok hconnect hexchange
      have hopening : (c.contact call).opening = .ok s := congrArg Prod.fst hconnect
      obtain ⟨counters, hnote⟩ := note_eq _ call.method answer
      rw [hnote] at hcall
      have hanswer : (c.contact call).answer = answer := by simp [contact, hcall]
      obtain ⟨hwritten, ⟨hanswers, hsettled⟩ | hbroken⟩ := exchange_cases hexchange
      · rw [putBack, if_pos (keepsStream_of_settled hsettled)] at hcall
        refine ⟨.settled hopening hwritten (hanswer ▸ hanswers) (hanswer ▸ hsettled) ?_ ?_,
          ⟨?_, ?_, ?_, ?_⟩⟩
        all_goals simp [contact, hcall, hconnect, Contact.number]
      · rw [putBack, if_neg (by simp [keepsStream_of_broken hbroken])] at hcall
        refine ⟨.broken hopening hwritten (hanswer ▸ hbroken) ?_ ?_, ⟨?_, ?_, ?_, ?_⟩⟩
        all_goals simp [contact, hcall, hconnect, Contact.number]
  · have hcall := callNamed_of_error hconnect call.method call.params
    obtain ⟨counters, hnote⟩ := note_eq _ call.method (.error (.unreachable failure))
    rw [hnote] at hcall
    refine ⟨.unconnected hlink (congrArg Prod.fst hconnect) ?_ ?_ ?_, ⟨?_, ?_, ?_, ?_⟩⟩
    all_goals simp [contact, hcall, hstream, hconnect, Contact.number]

end Client

namespace Contact

variable {x : Contact}

/-- The call has an outcome that the connection has no part in: a result, an error of the engine, or
a result that is not of the type that is asked for. -/
def Settled (x : Contact) : Prop :=
  ∃ (α : Type) (result : Codec α), (∃ a, x.outcome result = .ok a) ∨
    (∃ code message, x.outcome result = .error (.declined code message)) ∨
    x.outcome result = .error (.unreachable (.malformedResult x.call.method))

theorem Goes.settled_or_broken (h : x.Goes) : x.answer.Settled ∨ x.answer.Broken := by
  cases h with
  | unconnected hlink _ hanswer =>
    rw [hanswer]
    exact .inr (.unreachable hlink)
  | settled _ _ _ hsettled => exact .inl hsettled
  | broken _ _ hbroken => exact .inr hbroken

/-- The type of the result has no part in whether the engine has answered. -/
theorem Goes.settled_iff (h : x.Goes) : x.Settled ↔ x.answer.Settled := by
  constructor
  · rintro ⟨α, result, hresult⟩
    rcases h.settled_or_broken with hsettled | hbroken
    · exact hsettled
    · -- The outcome is the fault itself, and it is not about the type of a result.
      cases hanswer : x.answer with
      | ok v => exact .ok v
      | error fault =>
        rw [hanswer] at hbroken
        simp only [outcome, hanswer, Answer.decode] at hresult
        rcases hresult with ⟨_, ha⟩ | ⟨code, message, hdeclined⟩ | hmalformed
        · cases ha
        · cases hdeclined
          exact .declined code message
        · cases hmalformed
          cases hbroken with
          | unreachable hlink => exact hlink.elim
  · intro hsettled
    refine ⟨Json, .free, ?_⟩
    cases hanswer : x.answer with
    | ok v => exact .inl ⟨v, by simp only [outcome, hanswer]; rfl⟩
    | error fault =>
      rw [hanswer] at hsettled
      cases hsettled with
      | declined code message =>
        exact .inr (.inl ⟨code, message, by simp only [outcome, hanswer]; rfl⟩)

/-! ### Streams in a contact -/

/-- At most one stream comes after those that were given up. -/
theorem getElem?_append_toList {l : List Stream} {p : Nat} (hp : p ≠ l.length)
    (o : Option Stream) : (l ++ o.toList)[p]? = l[p]? := by
  rcases Nat.lt_or_gt_of_ne hp with hlt | hgt
  · exact List.getElem?_append_left hlt
  · have hlen : (l ++ o.toList).length ≤ p := by
      cases o <;> simp <;> omega
    rw [List.getElem?_eq_none hlen, List.getElem?_eq_none (Nat.le_of_lt hgt)]

/-- The streams that were given up before a contact stay, and at most one comes after them. -/
theorem Goes.exists_streams_eq (h : x.Goes) :
    ∃ o : Option Stream, x.after.streams = x.before.dropped.reverse ++ o.toList := by
  cases h with
  | unconnected _ _ _ hstream hdropped =>
    exact ⟨none, by rw [Client.streams, hstream, hdropped]⟩
  | @settled _ u _ _ _ _ hstream hdropped =>
    exact ⟨some u, by rw [Client.streams, hstream, hdropped]⟩
  | @broken _ u _ _ _ hstream hdropped =>
    exact ⟨some u, by simp [Client.streams, hstream, hdropped]⟩

/-- A contact leaves all streams alone that it does not go over. -/
theorem Goes.getElem?_streams (h : x.Goes) {p : Nat} (hp : p ≠ x.place) :
    x.after.streams[p]? = x.before.streams[p]? := by
  obtain ⟨o, ho⟩ := h.exists_streams_eq
  have hlength : p ≠ x.before.dropped.reverse.length := by
    rw [List.length_reverse]
    exact hp
  rw [ho, Client.streams, getElem?_append_toList hlength, getElem?_append_toList hlength]

/-- The stream that a contact goes over is found in its place afterwards, with what it accepts of
the line of the request. -/
theorem Goes.exists_at_place (h : x.Goes) {s : Stream} (hopening : x.opening = .ok s) :
    ∃ u, x.after.streams[x.place]? = some u ∧
      u.written = s.written ++ s.accepted x.request.line := by
  cases h with
  | unconnected _ herror =>
    rw [herror] at hopening
    cases hopening
  | @settled _ u hs hwritten _ _ hstream hdropped =>
    rw [hs] at hopening
    cases hopening
    exact ⟨u, by simp [Client.streams, place, hstream, hdropped], hwritten⟩
  | @broken _ u hs hwritten _ hstream hdropped =>
    rw [hs] at hopening
    cases hopening
    exact ⟨u, by simp [Client.streams, place, hstream, hdropped], hwritten⟩

/-- A settled contact has its answer over a stream, which stays in use. -/
theorem Goes.of_settled (h : x.Goes) (hsettled : x.answer.Settled) :
    ∃ s u, x.opening = .ok s ∧ s.Answers x.request x.answer u ∧ x.after.stream = some u ∧
      x.after.dropped = x.before.dropped ∧ x.after.streams[x.place]? = some u ∧
      u.written = s.written ++ Text.bytes x.request.line := by
  cases h with
  | unconnected hlink _ hanswer =>
    rw [hanswer] at hsettled
    cases hsettled
  | @settled s u hopening hwritten hanswers _ hstream hdropped =>
    refine ⟨s, u, hopening, hanswers, hstream, hdropped, ?_, hanswers.accepted_eq ▸ hwritten⟩
    simp [Client.streams, place, hstream, hdropped]
  | broken _ _ hbroken => exact absurd hbroken hsettled.not_broken

/-- After a broken contact there is no stream in use, and the one that it went over is given up. -/
theorem Goes.of_broken (h : x.Goes) (hbroken : x.answer.Broken) :
    x.after.stream = none ∧ ∀ s, x.opening = .ok s → x.place < x.after.dropped.length := by
  cases h with
  | unconnected _ hopening _ hstream =>
    refine ⟨hstream, fun s hs => ?_⟩
    rw [hopening] at hs
    cases hs
  | settled _ _ _ hsettled => exact absurd hbroken hsettled.not_broken
  | broken _ _ _ hstream hdropped =>
    refine ⟨hstream, fun s _ => ?_⟩
    rw [hdropped, List.length_cons, place]
    exact Nat.lt_succ_self _

/-- No stream that was given up comes back. -/
theorem Goes.length_dropped_le (h : x.Goes) :
    x.before.dropped.length ≤ x.after.dropped.length := by
  cases h with
  | unconnected _ _ _ _ hdropped | settled _ _ _ _ _ hdropped => rw [hdropped]
  | broken _ _ _ _ hdropped =>
    rw [hdropped, List.length_cons]
    exact Nat.le_succ _

end Contact

/-! ## Conversations -/

namespace Client

variable {J : Client → Prop} {I : Contact → Client → Prop} {R : Contact → Contact → Prop}

/-- What holds from a client on holds of all its contacts. -/
theorem forall_mem_converse {I : Client → Prop} {Q : Contact → Prop}
    (hI : ∀ c call, I c → I (c.contact call).after) (hQ : ∀ c call, I c → Q (c.contact call))
    {c : Client} (hc : I c) {calls : List NamedCall} : ∀ x ∈ c.converse calls, Q x := by
  induction calls generalizing c with
  | nil =>
    intro x hx
    cases hx
  | cons call calls ih =>
    intro x hx
    rcases List.mem_cons.1 hx with rfl | hx
    · exact hQ c call hc
    · exact ih (hI c call hc) x hx

theorem goes_of_mem {c : Client} {calls : List NamedCall} {x : Contact}
    (h : x ∈ c.converse calls) : x.Goes :=
  forall_mem_converse (I := fun _ => True) (fun _ _ _ => trivial)
    (fun c call _ => (c.contact_goes call).1) trivial x h

/-- A contact and every later one are related, if something that holds right after a contact holds
from then on and relates it to the next one. -/
theorem pairwise_converse (hJ : ∀ c call, J c → J (c.contact call).after)
    (hstart : ∀ c call, J c → I (c.contact call) (c.contact call).after)
    (hstep : ∀ x c call, I x c → I x (c.contact call).after)
    (hR : ∀ x c call, I x c → R x (c.contact call)) {c : Client} (hc : J c)
    (calls : List NamedCall) : (c.converse calls).Pairwise R := by
  induction calls generalizing c with
  | nil => exact .nil
  | cons call calls ih =>
    refine List.pairwise_cons.2 ⟨?_, ih (hJ c call hc)⟩
    exact forall_mem_converse (I := I (c.contact call)) (hstep _) (hR _) (hstart c call hc)

/-- A contact and the next one are related, if every two in a row are. -/
theorem isChain_converse (hJ : ∀ c call, J c → J (c.contact call).after)
    (hR : ∀ c call next, J c → R (c.contact call) ((c.contact call).after.contact next))
    {c : Client} (hc : J c) (calls : List NamedCall) : (c.converse calls).IsChain R := by
  induction calls generalizing c with
  | nil => exact .nil
  | cons call calls ih =>
    have hrest := ih (hJ c call hc)
    cases calls with
    | nil => exact .singleton _
    | cons next calls => exact .cons_cons (hR c call next hc) hrest

theorem map_call_converse (c : Client) (calls : List NamedCall) :
    (c.converse calls).map Contact.call = calls := by
  induction calls generalizing c with
  | nil => rfl
  | cons call calls ih => exact congrArg (call :: ·) (ih _)

/-- The calls of a conversation are numbered one after the other. -/
theorem issued_converse {c : Client} {calls : List NamedCall} {i : Nat} {x : Contact}
    (h : (c.converse calls)[i]? = some x) :
    x.number = c.issued + UInt64.ofNat (i + 1) ∧ x.after.issued = x.number := by
  induction calls generalizing c i with
  | nil => cases h
  | cons call calls ih =>
    have hissued := (c.contact_goes call).2.issued
    cases i with
    | zero =>
      cases h
      exact ⟨rfl, hissued⟩
    | succ i =>
      obtain ⟨hnumber, hafter⟩ := ih (c := (c.contact call).after) h
      refine ⟨?_, hafter⟩
      have hone : (c.contact call).number = c.issued + UInt64.ofNat 1 := rfl
      rw [hnumber, hissued, hone, UInt64.add_assoc, ← UInt64.ofNat_add, Nat.add_comm 1]

end Client

/-! ## Order -/

/-- The contacts in which a client with a given beginning makes calls are in order. -/
structure Orderly (origin : Origin) (calls : List NamedCall) (contacts : List Contact) : Prop where
  /-- Every call is made. -/
  complete : contacts.map Contact.call = calls
  /-- The calls are numbered from one on, whatever comes of them. -/
  numbered : ∀ i x, contacts[i]? = some x →
    x.number = UInt64.ofNat (i + 1) ∧ x.after.issued = UInt64.ofNat (i + 1)
  /-- Every call is either settled or broken. -/
  decided : ∀ x ∈ contacts, x.Settled ↔ ¬ x.answer.Broken
  /-- A settled call has its answer over a stream. The line of its request is written there, and the
  bytes that are read in the call begin with an envelope with its number, which holds the answer. -/
  answered : ∀ x ∈ contacts, x.Settled → ∃ s u, x.opening = .ok s ∧
    s.Answers x.request x.answer u ∧ x.after.streams[x.place]? = some u ∧
    u.written = s.written ++ Text.bytes x.request.line
  /-- The stream that a call goes over is in the place of the call afterwards, and a beginning of the
  line of the request has been written to it. -/
  written : ∀ x ∈ contacts, ∀ s, x.opening = .ok s → ∃ u, x.after.streams[x.place]? = some u ∧
    ∃ part, part <+: Text.bytes x.request.line ∧ u.written = s.written ++ part
  /-- A call leaves all streams alone but the one that it goes over. -/
  others : ∀ x ∈ contacts, ∀ p, p ≠ x.place → x.after.streams[p]? = x.before.streams[p]?
  /-- When a call is settled the next one goes over the same stream, as it was left. -/
  continued : contacts.IsChain fun x y => x.Settled → y.place = x.place ∧
    y.after.dialled = x.after.dialled ∧ ∃ u, x.after.streams[x.place]? = some u ∧ y.opening = .ok u
  /-- When a call over a stream is broken all later ones go over other streams, and that one stays
  as it was left. -/
  abandoned : contacts.Pairwise fun x y => x.answer.Broken → ∀ s, x.opening = .ok s →
    x.place < y.place ∧ y.after.streams[x.place]? = x.after.streams[x.place]?
  /-- When a call is broken a client with an address dials it for the next one. -/
  reopened : ∀ address bound dial, origin = .address address bound dial →
    contacts.IsChain fun x y => x.answer.Broken →
      y.opening = (dial x.after.dialled).mapError (LinkFailure.connect address.print) ∧
        y.after.dialled = x.after.dialled + 1
  /-- When a call is broken a client that was given its stream answers all later ones alike, and
  leaves its streams alone. -/
  closed : ∀ stream bound, origin = .stream stream bound →
    contacts.Pairwise fun x y => x.answer.Broken → y.after.streams = y.before.streams ∧
      ∃ why, y.answer = .error (.unreachable why) ∧
        why.message = "connection to engine is closed"

namespace Client

/-- A client dials in a contact as often as it does to connect. -/
theorem dialled_contact {c d : Client} {r : Except LinkFailure Stream} (h : c.connect = (r, d))
    (call : NamedCall) : (c.contact call).after.dialled = d.dialled := by
  rw [(c.contact_goes call).2.dialled]
  exact congrArg (fun r => r.2.dialled) h

/-- A settled call leaves its stream for the next one. -/
theorem continued_contact (c : Client) (call next : NamedCall)
    (hsettled : (c.contact call).Settled) :
    let x := c.contact call
    let y := x.after.contact next
    y.place = x.place ∧ y.after.dialled = x.after.dialled ∧
      ∃ u, x.after.streams[x.place]? = some u ∧ y.opening = .ok u := by
  intro x y
  have hgoes := (c.contact_goes call).1
  obtain ⟨s, u, -, -, hstream, hdropped, hplace, -⟩ := hgoes.of_settled (hgoes.settled_iff.1 hsettled)
  have hconnect := connect_of_stream hstream
  exact ⟨congrArg List.length hdropped, dialled_contact hconnect next, u, hplace,
    congrArg Prod.fst hconnect⟩

/-- With an address a broken call makes the next one dial. -/
theorem reopened_contact {c : Client} {address : Address} {dial : Nat → Except String Stream}
    (ha : c.address = some address) (hdial : c.dial = dial) (call next : NamedCall)
    (hbroken : (c.contact call).answer.Broken) :
    let x := c.contact call
    let y := x.after.contact next
    y.opening = (dial x.after.dialled).mapError (LinkFailure.connect address.print) ∧
      y.after.dialled = x.after.dialled + 1 := by
  intro x y
  obtain ⟨hgoes, hcarries⟩ := c.contact_goes call
  have hconnect := connect_of_address (hgoes.of_broken hbroken).1 (hcarries.address.trans ha)
  rw [hcarries.dial.trans hdial] at hconnect
  exact ⟨congrArg Prod.fst hconnect, dialled_contact hconnect next⟩

/-- A client without address and stream answers every call alike. -/
theorem closed_contact {c : Client} (hs : c.stream = none) (ha : c.address = none)
    (call : NamedCall) :
    (c.contact call).answer = .error (.unreachable .closed) ∧
      (c.contact call).after.stream = none ∧
      (c.contact call).after.streams = c.streams := by
  have hopening : (c.contact call).opening = .error .closed :=
    congrArg Prod.fst (connect_of_closed hs ha)
  cases (c.contact_goes call).1 with
  | unconnected _ herror hanswer hstream hdropped =>
    rw [hopening] at herror
    cases herror
    refine ⟨hanswer, hstream, ?_⟩
    rw [streams, streams, hstream, hs, hdropped]
    rfl
  | settled hok | broken hok =>
    rw [hopening] at hok
    cases hok

end Client

/-- The stream of a contact has been given up before a client goes on, and stays as it was left. -/
def Contact.LeftBehind (x : Contact) (c : Client) : Prop :=
  x.answer.Broken → ∀ s, x.opening = .ok s →
    x.place < c.dropped.length ∧ c.streams[x.place]? = x.after.streams[x.place]?

theorem Contact.LeftBehind.contact {x : Contact} {c : Client} (h : x.LeftBehind c)
    (call : NamedCall) : x.LeftBehind (c.contact call).after := by
  intro hbroken s hopening
  obtain ⟨hlt, hleft⟩ := h hbroken s hopening
  have hgoes := (c.contact_goes call).1
  refine ⟨Nat.lt_of_lt_of_le hlt hgoes.length_dropped_le, ?_⟩
  rw [hgoes.getElem?_streams (Nat.ne_of_lt hlt)]
  exact hleft

/-- Every conversation is in order, wherever the client begins, whatever is called, and whatever the
streams deliver. -/
theorem converse_orderly (origin : Origin) (calls : List NamedCall) :
    Orderly origin calls (origin.client.converse calls) where
  complete := Client.map_call_converse _ calls
  numbered i x hx := by
    obtain ⟨hnumber, hafter⟩ := Client.issued_converse hx
    have hissued : origin.client.issued = 0 := by cases origin <;> rfl
    rw [hissued, UInt64.zero_add] at hnumber
    exact ⟨hnumber, hafter.trans hnumber⟩
  decided x hx := by
    have hgoes := Client.goes_of_mem hx
    rw [hgoes.settled_iff]
    exact ⟨Answer.Settled.not_broken, hgoes.settled_or_broken.resolve_right⟩
  answered x hx hsettled := by
    have hgoes := Client.goes_of_mem hx
    obtain ⟨s, u, hopening, hanswers, -, -, hplace, hwritten⟩ :=
      hgoes.of_settled (hgoes.settled_iff.1 hsettled)
    exact ⟨s, u, hopening, hanswers, hplace, hwritten⟩
  written x hx s hopening := by
    obtain ⟨u, hu, hwritten⟩ := (Client.goes_of_mem hx).exists_at_place hopening
    exact ⟨u, hu, _, s.accepted_prefix _, hwritten⟩
  others x hx p hp := (Client.goes_of_mem hx).getElem?_streams hp
  continued :=
    Client.isChain_converse (J := fun _ => True) (fun _ _ _ => trivial)
      (fun c call next _ => c.continued_contact call next) trivial calls
  abandoned := by
    refine Client.pairwise_converse (J := fun _ => True) (I := Contact.LeftBehind)
      (fun _ _ _ => trivial) ?_ (fun x c call h => h.contact call) ?_ trivial calls
    · intro c call _ hbroken s hopening
      exact ⟨((c.contact_goes call).1.of_broken hbroken).2 s hopening, rfl⟩
    · intro x c call h hbroken s hopening
      exact ⟨(h hbroken s hopening).1, (h.contact call hbroken s hopening).2⟩
  reopened address bound dial horigin := by
    subst horigin
    refine Client.isChain_converse (J := fun c => c.address = some address ∧ c.dial = dial)
      ?_ ?_ ⟨rfl, rfl⟩ calls
    · rintro c call ⟨ha, hdial⟩
      have hcarries := (c.contact_goes call).2
      exact ⟨hcarries.address.trans ha, hcarries.dial.trans hdial⟩
    · rintro c call next ⟨ha, hdial⟩
      exact Client.reopened_contact ha hdial call next
  closed stream bound horigin := by
    subst horigin
    have haddress (c : Client) (call : NamedCall) (ha : c.address = none) :
        (c.contact call).after.address = none :=
      (c.contact_goes call).2.address.trans ha
    refine Client.pairwise_converse (J := fun c => c.address = none)
      (I := fun x c => c.address = none ∧ (x.answer.Broken → c.stream = none)) haddress ?_ ?_ ?_
      rfl calls
    · intro c call ha
      exact ⟨haddress c call ha, fun hbroken => ((c.contact_goes call).1.of_broken hbroken).1⟩
    · rintro x c call ⟨ha, hs⟩
      exact ⟨haddress c call ha, fun hbroken => (Client.closed_contact (hs hbroken) ha call).2.1⟩
    · rintro x c call ⟨ha, hs⟩ hbroken
      obtain ⟨hanswer, -, hstreams⟩ := Client.closed_contact (hs hbroken) ha call
      exact ⟨hstreams, .closed, hanswer, rfl⟩

end StorageControl.Engine
