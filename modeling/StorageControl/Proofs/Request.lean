/-
# Requests are framed by lines

A request is written as one object on a line of its own. Whatever the method is called and whatever
the parameters hold, there is no other line break in the line, the object has the keys of a request
and no others, and reading it gives the request back. So what a client writes to a stream is cut at
the line breaks into the requests of its calls, in the order of their numbers. Only the last of them
can be missing: if its write fails, what comes after the last line break is a beginning of it.
-/
import StorageControl.Proofs.Codec
import StorageControl.Proofs.Conversation
import StorageControl.Proofs.Written

namespace StorageControl.Engine

open Json Json.Reader

/-! ## One request -/

namespace Request

/-- The keys of a request, in the order in which they are written. -/
def keys (r : Request) : List String :=
  ["jsonrpc", "id", "method"] ++ if r.params.isSome then ["params"] else []

theorem map_fst_members (r : Request) : r.members.map (·.1) = r.keys := by
  obtain ⟨id, method, params⟩ := r
  cases params <;> rfl

theorem nodup_keys (r : Request) : r.keys.Nodup := by
  unfold keys
  split <;> decide

/-- The line of a request holds the request and nothing else. -/
structure Framed (r : Request) : Prop where
  /-- The line is a text with a line break after it. -/
  bytes_line : Text.bytes r.line = Text.bytes r.text ++ [10]
  /-- There is no other line break in the line. -/
  newline_not_mem : 10 ∉ Text.bytes r.text
  /-- The text is one value, and begins as an object does. -/
  value : readAs .skipped (Text.bytes r.text) = .found .null []
  head : (Text.bytes r.text).head? = some 123
  /-- A reader that looks for a key in the object finds it exactly if it is one of the request. -/
  key : ∀ key, readAs (.record [(key, .optional, .skipped)]) (Text.bytes r.text) =
    .found (.obj (if key ∈ r.keys then [(key, .null)] else [])) []
  /-- With parameters that hold none but whole numbers, and `n` lists and objects within one another,
  the text is read as the request by every reader that has room for one more. -/
  reads : ∀ n, (∀ params ∈ r.params, Shape.Fits n .any params) → ∃ v,
    (∀ limit, n < limit → readWithin limit .any (Text.bytes r.text) = .found v []) ∧
      (n < depthLimit → readAs .any (Text.bytes r.text) = .found v []) ∧
      v.member? "jsonrpc" = some (.str protocolVersion) ∧
      v.member? "id" = some (.ofInt r.id.toNat) ∧ v.member? "method" = some (.str r.method) ∧
      v.member? "params" = r.params ∧ ∀ key, key ∉ r.keys → v.member? key = none

/-- Every member of a request fits, if its parameters do. -/
theorem fits_of_mem (r : Request) {n : Nat} (h : ∀ params ∈ r.params, Shape.Fits n .any params)
    {m : String × Json} (hm : m ∈ r.members) : Shape.Fits n .any m.2 := by
  have hid : Number.Held r.id.toNat := by
    have hlt := r.id.toNat_lt
    unfold Number.Held
    omega
  obtain ⟨id, method, params⟩ := r
  simp only [members, List.mem_append, List.mem_cons, List.not_mem_nil, or_false] at hm
  rcases hm with (rfl | rfl | rfl) | hm
  · exact .plain trivial rfl
  · exact .plain (.inr ⟨_, rfl, hid⟩) rfl
  · exact .plain trivial rfl
  · cases params with
    | none => cases hm
    | some params =>
      obtain rfl := List.mem_singleton.1 hm
      exact h params rfl

theorem framed (r : Request) : r.Framed where
  bytes_line := Text.bytes_append _ _
  newline_not_mem := by
    rw [text, bytes_print]
    exact newline_not_mem_write _
  value := by
    rw [← Json.readWithin_depthLimit, ← List.append_nil (Text.bytes r.text)]
    exact (readsAs_skipped _ _).found ends_nil
  head := by
    rw [text, bytes_print]
    rfl
  key key := by
    rw [← Json.readWithin_depthLimit, ← List.append_nil (Text.bytes r.text), ← map_fst_members]
    refine (readsAs_presence (by decide) ?_ key).found ends_nil
    rw [map_fst_members]
    exact r.nodup_keys
  reads n hparams := by
    have hread (limit : Nat) (hlimit : n < limit) :
        readWithin limit .any (Text.bytes r.text) = .found (.object r.members) [] := by
      rw [← List.append_nil (Text.bytes r.text)]
      refine ReadsAs.found (readsAs_object (Nat.zero_lt_of_lt hlimit) fun m hm f => ?_) ends_nil
      exact (r.fits_of_mem hparams hm).readsAs (Nat.add_comm n 1 ▸ hlimit)
    have hmember (key : String) :
        (Json.object r.members).member? key = Assoc.find? key r.members :=
      Assoc.find?_ofList (r.map_fst_members ▸ r.nodup_keys) key
    refine ⟨.object r.members, hread, fun hn => ?_, ?_, ?_, ?_, ?_, fun key hkey => ?_⟩
    · rw [← Json.readWithin_depthLimit]
      exact hread _ hn
    · exact hmember "jsonrpc"
    · exact hmember "id"
    · exact hmember "method"
    · rw [hmember]
      obtain ⟨id, method, params⟩ := r
      cases params <;> rfl
    · rw [hmember]
      exact Assoc.find?_eq_none_of_not_mem (r.map_fst_members ▸ hkey)

end Request

/-! ## The requests on a stream -/

namespace Contact

variable {x : Contact}

/-- The line of the request is written, and the write does not fail. -/
def writes (x : Contact) : Bool :=
  match x.opening with
  | .ok s => (s.write x.request.line).1.isOk
  | .error _ => false

/-- What the call leaves on its stream, if there is one. -/
def left (x : Contact) : List UInt8 :=
  match x.opening with
  | .ok s => s.accepted x.request.line
  | .error _ => []

/-- The call goes over the stream in a place. -/
def goesOver (p : Nat) (x : Contact) : Bool :=
  x.place == p && x.opening.isOk

/-- The bytes of the request, without the line break. -/
def spelled (x : Contact) : List UInt8 :=
  Text.bytes x.request.text

theorem newline_not_mem_spelled (x : Contact) : 10 ∉ x.spelled :=
  x.request.framed.newline_not_mem

/-- A call that writes its line leaves the request and a line break. -/
theorem left_of_writes (h : x.writes = true) : x.left = x.spelled ++ [10] := by
  unfold writes at h
  unfold left
  cases hopening : x.opening with
  | error failure =>
    rw [hopening] at h
    cases h
  | ok s =>
    simp only [hopening] at h
    rw [spelled, ← x.request.framed.bytes_line]
    rcases s.write_cases x.request.line with ⟨-, hall⟩ | ⟨_, hr, -⟩
    · exact hall
    · rw [hr] at h
      cases h

/-- A call whose write fails leaves a beginning of the request, and no line break. -/
theorem left_prefix_of_not_writes (h : x.writes = false) : x.left <+: x.spelled := by
  unfold writes at h
  unfold left
  cases hopening : x.opening with
  | error failure => exact List.nil_prefix
  | ok s =>
    simp only [hopening] at h
    rcases s.write_cases x.request.line with ⟨hr, -⟩ | ⟨_, -, hpart⟩
    · rw [hr] at h
      cases h
    · rwa [x.request.framed.bytes_line, List.dropLast_concat] at hpart

/-- A call that is settled has written its request. -/
theorem Goes.writes_of_settled (h : x.Goes) (hsettled : x.answer.Settled) : x.writes = true := by
  obtain ⟨s, u, hopening, ⟨hwrite, -, -, -, -, -, -, -⟩, -⟩ := h.of_settled hsettled
  rw [writes, hopening]
  simp only [hwrite]
  rfl

end Contact

namespace Client

variable {c : Client} {call : NamedCall} {calls : List NamedCall} {p : Nat} {s u : Stream}

/-- The stream in a place as it was before the first of the calls that go over it, if any does. -/
def streamBefore (c : Client) (p : Nat) (contacts : List Contact) : Option Stream :=
  (contacts.find? (Contact.goesOver p)).elim c.streams[p]? fun x => x.opening.toOption

/-- A call goes over the stream that the client has, if it has one. -/
theorem opening_of_stream (h : c.stream = some s) : (c.contact call).opening = .ok s :=
  congrArg Prod.fst (connect_of_stream h)

/-- The stream that a client has is in the place of the next call. -/
theorem getElem?_place (c : Client) (call : NamedCall) :
    c.streams[(c.contact call).place]? = c.stream := by
  have hplace : (c.contact call).place = c.dropped.reverse.length := List.length_reverse.symm
  rw [hplace, streams, List.getElem?_append_right (Nat.le_refl _), Nat.sub_self]
  cases c.stream <;> rfl

theorem opening_of_goesOver {x : Contact} (h : x.goesOver p = true) :
    x.place = p ∧ ∃ s, x.opening = .ok s := by
  rw [Contact.goesOver, Bool.and_eq_true, beq_iff_eq] at h
  refine ⟨h.1, ?_⟩
  cases hopening : x.opening with
  | ok s => exact ⟨s, rfl⟩
  | error =>
    rw [hopening] at h
    cases h.2

/-- A call that does not go over a stream leaves it alone. -/
theorem getElem?_of_not_goesOver (h : (c.contact call).goesOver p = false) :
    (c.contact call).after.streams[p]? = c.streams[p]? := by
  have hgoes := (c.contact_goes call).1
  by_cases hp : p = (c.contact call).place
  · cases hopening : (c.contact call).opening with
    | ok s => simp [Contact.goesOver, hopening, hp, Except.isOk, Except.toBool] at h
    | error failure =>
      have hnone : c.stream = none := by
        cases hstream : c.stream with
        | none => rfl
        | some t =>
          rw [opening_of_stream hstream] at hopening
          cases hopening
      cases hgoes with
      | unconnected _ _ _ hstream hdropped =>
        rw [streams, streams, hstream, hdropped, hnone]
        rfl
      | settled hok | broken hok =>
        rw [hopening] at hok
        cases hok
  · exact hgoes.getElem?_streams hp

/-- A stream that is there is as it was before the first call over it. -/
theorem streamBefore_of_some (h : c.streams[p]? = some s) (calls : List NamedCall) :
    c.streamBefore p (c.converse calls) = some s := by
  induction calls generalizing c with
  | nil => exact h
  | cons call calls ih =>
    rw [converse, streamBefore]
    cases hover : (c.contact call).goesOver p with
    | true =>
      obtain ⟨hplace, -⟩ := opening_of_goesOver hover
      rw [← hplace, getElem?_place] at h
      rw [List.find?_cons_of_pos hover, Option.elim_some, opening_of_stream h]
      rfl
    | false =>
      have hsame := getElem?_of_not_goesOver hover
      rw [List.find?_cons_of_neg (by simp [hover]), ← hsame]
      exact ih (hsame.trans h)

/-- What is written to a stream in a conversation is what the calls over it leave there, one after
the other. -/
theorem exists_written_eq (c : Client) (calls : List NamedCall)
    (h : (c.after calls).streams[p]? = some u) :
    ∃ s, c.streamBefore p (c.converse calls) = some s ∧ u.written =
      s.written ++ ((c.converse calls).filter (Contact.goesOver p)).flatMap Contact.left := by
  induction calls generalizing c with
  | nil => exact ⟨u, h, (List.append_nil _).symm⟩
  | cons call calls ih =>
    obtain ⟨s, hs, hwritten⟩ := ih _ h
    rw [converse, streamBefore]
    cases hover : (c.contact call).goesOver p with
    | true =>
      obtain ⟨hplace, t, hopening⟩ := opening_of_goesOver hover
      obtain ⟨v, hv, hleft⟩ := (c.contact_goes call).1.exists_at_place hopening
      rw [hplace] at hv
      rw [streamBefore_of_some hv] at hs
      cases hs
      refine ⟨t, ?_, ?_⟩
      · rw [List.find?_cons_of_pos hover, Option.elim_some, hopening]
        rfl
      · have hcontact : (c.contact call).left = t.accepted (c.contact call).request.line := by
          rw [Contact.left, hopening]
        rw [hwritten, hleft, List.filter_cons_of_pos hover, List.flatMap_cons, hcontact,
          List.append_assoc]
    | false =>
      have hnot : ¬ (c.contact call).goesOver p = true := by
        rw [hover]
        exact Bool.false_ne_true
      rw [List.find?_cons_of_neg hnot, List.filter_cons_of_neg hnot,
        ← getElem?_of_not_goesOver hover]
      exact ⟨s, hs, hwritten⟩

end Client

/-! ## Lines -/

/-- What some calls over a stream leave there, cut at the line breaks. -/
inductive CutByLine : List Contact → List UInt8 → Prop
  /-- Every call writes its line, and nothing comes after the last line break. -/
  | lines {contacts : List Contact} {sent : List UInt8}
      (hwrites : ∀ x ∈ contacts, x.writes = true)
      (hcut : sent.splitOn 10 = contacts.map Contact.spelled ++ [[]]) : CutByLine contacts sent
  /-- The write of the last call fails, which breaks the call, and what comes after the last line
  break is a beginning of its request. -/
  | torn {contacts : List Contact} {last : Contact} {sent part : List UInt8}
      (hwrites : ∀ x ∈ contacts, x.writes = true) (hfailed : last.writes = false)
      (hbroken : last.answer.Broken) (hpart : part <+: last.spelled)
      (hcut : sent.splitOn 10 = contacts.map Contact.spelled ++ [part]) :
      CutByLine (contacts ++ [last]) sent

/-- Lines, and a rest without a line break, are cut at the line breaks into what is on the lines and
the rest. -/
theorem splitOn_left {contacts : List Contact} (hwrites : ∀ x ∈ contacts, x.writes = true)
    {rest : List UInt8} (hrest : 10 ∉ rest) :
    (contacts.flatMap Contact.left ++ rest).splitOn 10 =
      contacts.map Contact.spelled ++ [rest] := by
  induction contacts with
  | nil => exact List.splitOn_eq_singleton hrest
  | cons x contacts ih =>
    obtain ⟨hx, hwrites⟩ := List.forall_mem_cons.1 hwrites
    have hline : (x.spelled ++ 10 :: (contacts.flatMap Contact.left ++ rest)).splitOn 10 =
        x.spelled.splitOn 10 ++ (contacts.flatMap Contact.left ++ rest).splitOn 10 :=
      List.splitOnP_append_cons _ _ (beq_self_eq_true _)
    rw [List.flatMap_cons, Contact.left_of_writes hx, List.append_assoc, List.append_assoc,
      List.singleton_append, hline, ih hwrites,
      List.splitOn_eq_singleton x.newline_not_mem_spelled]
    rfl

/-- If only the last of some calls can fail to write, what they leave is cut into their requests. -/
theorem cutByLine_left {contacts : List Contact} (hgoes : ∀ x ∈ contacts, x.Goes)
    (h : contacts.Pairwise fun x _ => x.writes = true) :
    CutByLine contacts (contacts.flatMap Contact.left) := by
  have hall {contacts : List Contact} (hwrites : ∀ x ∈ contacts, x.writes = true) :
      CutByLine contacts (contacts.flatMap Contact.left) := by
    refine .lines hwrites ?_
    rw [← splitOn_left hwrites List.not_mem_nil, List.append_nil]
  rcases List.eq_nil_or_concat' contacts with rfl | ⟨earlier, last, rfl⟩
  · exact hall (fun x hx => absurd hx List.not_mem_nil)
  · obtain ⟨-, -, hbefore⟩ := List.pairwise_append.1 h
    have hearlier : ∀ x ∈ earlier, x.writes = true := fun x hx =>
      hbefore x hx last (List.mem_singleton_self last)
    cases hlast : last.writes with
    | true =>
      refine hall fun x hx => ?_
      rcases List.mem_append.1 hx with hx | hx
      · exact hearlier x hx
      · rw [List.mem_singleton.1 hx, hlast]
    | false =>
      have hlastGoes := hgoes last (List.mem_append_right _ List.mem_cons_self)
      have hbroken : last.answer.Broken := hlastGoes.settled_or_broken.resolve_left fun hsettled =>
        Bool.false_ne_true (hlast.symm.trans (hlastGoes.writes_of_settled hsettled))
      have hpart := Contact.left_prefix_of_not_writes hlast
      refine .torn hearlier hlast hbroken hpart ?_
      rw [List.flatMap_append, List.flatMap_singleton]
      exact splitOn_left hearlier fun hmem => last.newline_not_mem_spelled (hpart.subset hmem)

/-- What a client with a given beginning sends when it makes calls. -/
structure SentByLine (origin : Origin) (calls : List NamedCall) : Prop where
  /-- The calls are made in order, and numbered in order as long as there are numbers left. -/
  ordered : (origin.client.converse calls).map Contact.call = calls
  increasing : calls.length < UInt64.size →
    (origin.client.converse calls).Pairwise fun x y => x.number < y.number
  /-- What is written to a stream is cut at the line breaks into the requests of the calls that go
  over it, in the order of these calls, but for the last one if its write fails. -/
  lines : ∀ p u, (origin.client.after calls).streams[p]? = some u → ∃ s sent,
    origin.client.streamBefore p (origin.client.converse calls) = some s ∧
      u.written = s.written ++ sent ∧
      CutByLine ((origin.client.converse calls).filter (Contact.goesOver p)) sent

namespace Client

/-- The calls of a conversation are numbered in order, from one on. -/
theorem pairwise_number (origin : Origin) {calls : List NamedCall}
    (h : calls.length < UInt64.size) :
    (origin.client.converse calls).Pairwise fun x y => x.number < y.number := by
  have hnumber {i : Nat} {x : Contact} (hx : (origin.client.converse calls)[i]? = some x) :
      x.number.toNat = i + 1 := by
    have hissued : origin.client.issued = 0 := by cases origin <;> rfl
    have hlength : (origin.client.converse calls).length = calls.length := by
      simpa using congrArg List.length (map_call_converse origin.client calls)
    have hi : i < calls.length := hlength ▸ (List.getElem?_eq_some_iff.1 hx).1
    rw [(issued_converse hx).1, hissued, UInt64.zero_add, UInt64.toNat_ofNat',
      Nat.mod_eq_of_lt (by rw [UInt64.size] at h; omega)]
  rw [List.pairwise_iff_getElem]
  intro i j hi hj hlt
  rw [UInt64.lt_iff_toNat_lt, hnumber (List.getElem?_eq_getElem hi),
    hnumber (List.getElem?_eq_getElem hj)]
  exact Nat.succ_lt_succ hlt

/-- After a call whose write fails no other one goes over its stream. -/
theorem pairwise_writes (c : Client) (calls : List NamedCall) (p : Nat) :
    ((c.converse calls).filter (Contact.goesOver p)).Pairwise fun x _ => x.writes = true := by
  have hplaces : (c.converse calls).Pairwise fun x y =>
      x.answer.Broken → ∀ s, x.opening = .ok s → x.place < y.place := by
    refine pairwise_converse (J := fun _ => True) (I := Contact.LeftBehind)
      (fun _ _ _ => trivial) ?_ (fun x c call h => h.contact call) ?_ trivial calls
    · intro c call _ hbroken s hopening
      exact ⟨((c.contact_goes call).1.of_broken hbroken).2 s hopening, rfl⟩
    · intro x c call h hbroken s hopening
      exact (h hbroken s hopening).1
  rw [List.pairwise_filter]
  refine hplaces.imp_of_mem fun {x y} hx _ hxy hover hover' => ?_
  have hgoes := goes_of_mem hx
  obtain ⟨hplace, s, hopening⟩ := opening_of_goesOver hover
  rcases hgoes.settled_or_broken with hsettled | hbroken
  · exact hgoes.writes_of_settled hsettled
  · have hlt := hxy hbroken s hopening
    rw [hplace, (opening_of_goesOver hover').1] at hlt
    exact absurd hlt (Nat.lt_irrefl p)

end Client

/-- Every request is on a line of its own, and what is sent over a stream are the requests of the
calls made over it, line by line. Only of the last one less may be there, if its write fails. -/
theorem requests_framed (origin : Origin) (calls : List NamedCall) :
    (∀ r : Request, r.Framed) ∧ SentByLine origin calls := by
  refine ⟨Request.framed, Client.map_call_converse _ calls, Client.pairwise_number origin,
    fun p u hu => ?_⟩
  obtain ⟨s, hs, hwritten⟩ := origin.client.exists_written_eq calls hu
  refine ⟨s, _, hs, hwritten, cutByLine_left (fun x hx => ?_) (Client.pairwise_writes _ calls p)⟩
  exact Client.goes_of_mem (List.mem_of_mem_filter hx)

/-- A call whose write fails goes over the stream, but its request is not there in full: nothing of
it is, or a beginning of it. -/
theorem not_all_requests_sent :
    let calls : List NamedCall := [⟨"bdev_get_bdevs", none⟩]
    let origin (taken : List Nat) : Origin :=
      .stream { writes := [some "scripted write failure"], taken } 16777216
    let requests (taken : List Nat) :=
      (((origin taken).client.converse calls).filter (Contact.goesOver 0)).map Contact.spelled
    let pieces (taken : List Nat) :=
      ((origin taken).client.after calls).streams.map (·.written.splitOn 10)
    let request := "\x7b\"jsonrpc\":\"2.0\",\"id\":1,\"method\":\"bdev_get_bdevs\"\x7d"
    requests [] = [Text.bytes request] ∧ pieces [] = [[[]]] ∧
      pieces [] ≠ [requests [] ++ [[]]] ∧
      requests [10] = [Text.bytes request] ∧ pieces [10] = [[Text.bytes "\x7b\"jsonrpc\""]] ∧
      pieces [10] ≠ [requests [10] ++ [[]]] := by
  decide +kernel

end StorageControl.Engine
