/-
# Requests reach only what their paths address

The ids in the path of a request may hold any characters when their escapes have been replaced, and
names are put together from them as they are. Still no two ids lead to the record of others: a name
that is kept has exactly as many pieces as its path, so that a composed name that equals it has no
slashes in its ids. So a request changes and shows nothing but the record with the ids in its path,
whatever its query and its body say, and a record that it adds to a collection belongs to the parent
in its path.
-/
import StorageControl.Proofs.MaskedMerge
import StorageControl.Proofs.Placement
import StorageControl.Rest.Server

namespace StorageControl

open Engine (Answer Call Counters Script)

/-! ## Pieces of any texts -/

namespace Text

theorem cut_append (sep : Char) (s t : List Char) :
    cut sep (s ++ sep :: t) = cut sep s ++ cut sep t := by
  induction s with
  | nil => simp [cut]
  | cons c s ih =>
    rw [List.cons_append, cut, cut]
    split
    · rw [ih, List.cons_append]
    · obtain ⟨piece, pieces, hcut⟩ := List.exists_cons_of_ne_nil (cut_ne_nil sep s)
      rw [ih, hcut, List.cons_append]
      rfl

/-- The pieces of a text with a slash in it are those before the slash and those behind it. -/
theorem segments_append_slash (s t : String) :
    segments '/' (s ++ ("/" ++ t)) = segments '/' s ++ segments '/' t := by
  have hlist : (s ++ ("/" ++ t)).toList = s.toList ++ '/' :: t.toList := by simp
  rw [segments, hlist, cut_append, List.map_append]
  rfl

theorem segments_ne_nil (sep : Char) (s : String) : segments sep s ≠ [] := by
  intro h
  exact cut_ne_nil sep s.toList (List.map_eq_nil_iff.1 h)

/-- A text with a single piece is that piece. -/
theorem eq_of_segments_eq {sep : Char} {s piece : String} (h : segments sep s = [piece]) :
    s = piece := by
  have hwhole : Whole sep piece := by
    apply whole_of_mem_segments (s := s)
    rw [h]
    exact List.mem_singleton_self piece
  have hsame : segments sep s = segments sep piece := by
    rw [h, segments_of_whole hwhole]
  exact segments_injective hsame

end Text

open Text (Whole segments)

namespace Name

/-- A name that is composed of whole ids is composed of no others. -/
theorem eq_ids_of_compose {k : Kind} {p i q j : String} (hq : Whole '/' q) (hj : Whole '/' j)
    (h : compose k p i = compose k q j) : i = j ∧ (k.parent?.isSome → p = q) := by
  cases hk : k.parent? with
  | none =>
    rw [compose_of_root hk p q] at h
    exact ⟨compose_inj.1 h, nofun⟩
  | some owner =>
    have hpieces (p i : String) : segments '/' (compose k p i) = authorityPieces ++
        owner.collection :: (segments '/' p ++ k.collection :: segments '/' i) := by
      simp only [compose, hk, String.append_assoc]
      rw [segments_authority, Text.segments_slash (whole_collection owner),
        Text.segments_append_slash, Text.segments_slash (whole_collection k)]
    have hsame : segments '/' p ++ k.collection :: segments '/' i = [q, k.collection, j] := by
      have hboth := congrArg (segments '/') h
      rw [hpieces, hpieces, Text.segments_of_whole hq, Text.segments_of_whole hj] at hboth
      exact (List.cons.inj (List.append_cancel_left hboth)).2
    -- There are three pieces in all, and each of the ids has one at least.
    obtain ⟨x, xs, hp⟩ := List.exists_cons_of_ne_nil (Text.segments_ne_nil '/' p)
    obtain ⟨y, ys, hi⟩ := List.exists_cons_of_ne_nil (Text.segments_ne_nil '/' i)
    rw [hp, hi] at hsame
    have hlength := congrArg List.length hsame
    simp only [List.length_append, List.length_cons, List.length_nil] at hlength
    obtain rfl : xs = [] := List.eq_nil_of_length_eq_zero (by omega)
    obtain rfl : ys = [] := List.eq_nil_of_length_eq_zero (by omega)
    simp only [List.cons_append, List.nil_append, List.cons.injEq, and_true, true_and] at hsame
    obtain ⟨rfl, rfl⟩ := hsame
    exact ⟨Text.eq_of_segments_eq hi, fun _ => Text.eq_of_segments_eq hp⟩

/-- A name of a record is put together from exactly these ids, and holds them. -/
structure HasIds (k : Kind) (name parentId ownId : String) : Prop where
  composed : name = compose k parentId ownId
  own : Name.ownId name = ownId
  parent : ∀ owner, k.parent? = some owner → idIn name owner.collection = parentId

end Name

/-- If a record is kept under a composed name, then the ids in the name are those it is composed of. -/
theorem Placed.hasIds {k : Kind} {p i : String} {record : k.Record}
    (h : Placed k (Name.compose k p i) record) : Name.HasIds k (Name.compose k p i) p i := by
  obtain ⟨q, j, hname, hj, hq⟩ := h.composed
  have hwhole : Whole '/' j := Check.whole_of_isId (Check.id_eq_ok_iff.1 hj)
  cases hk : k.parent? with
  | none =>
    rw [Name.compose_of_root hk p ""] at hname ⊢
    rw [Name.compose_of_root hk q ""] at hname
    obtain rfl : i = j := Name.compose_inj.1 hname
    refine ⟨Name.compose_of_root hk "" p i, Name.ownId_compose k (by simp [Whole]) hwhole, ?_⟩
    intro owner howner
    rw [hk] at howner
    cases howner
  | some owner =>
    have hwhole' : Whole '/' q := Check.whole_of_isId (Check.id_eq_ok_iff.1 (hq (by simp [hk])))
    obtain ⟨rfl, hp⟩ := Name.eq_ids_of_compose hwhole' hwhole hname
    obtain rfl : p = q := hp (by simp [hk])
    refine ⟨rfl, Name.ownId_compose k hwhole' hwhole, fun owner howner => ?_⟩
    exact Name.idIn_compose howner hwhole' hwhole

/-! ## Changes of operations -/

section

variable {registry : Attach.Registry} {inv : Inventory} {k : Kind} {bits : Nat} {op : Operation k}
  {events : List Event} {r : Except Fault (Reply k)}

/-- An operation changes at most the record under the name that it is about. -/
theorem Turn.subject_of_changed (h : Turn registry (Uuid.text bits) inv op events r) {j : Kind}
    {name : String} (hne : (inv.after events).find? j name ≠ inv.find? j name) :
    j = k ∧ op.subject? registry (Uuid.text bits) = some name := by
  have hkind : j = k := by
    by_contra hj
    refine hne ?_
    rw [Inventory.find?, Inventory.find?, h.table_of_ne hj]
  subst hkind
  refine ⟨rfl, ?_⟩
  by_contra hsubject
  refine hne ?_
  cases r with
  | error e => rw [h.after_of_error]
  | ok reply =>
    have hframe := h.frame_of_ok
    cases op with
    | create | update | delete => exact hframe.2.2 name hsubject
    | list => rw [Inventory.find?, Inventory.find?, hframe.1 j]
    | get | stats => rw [hframe]

/-- Every record stays where its name and its parent put it. -/
theorem Turn.placed_of_bits (h : Turn registry (Uuid.text bits) inv op events r)
    (hinv : inv.All Placed) : (inv.after events).All Placed := by
  have hturn : Turn registry (Step.fresh ⟨k, op, bits⟩) inv (Step.operation ⟨k, op, bits⟩)
    events r := h
  exact hturn.placed hinv

/-- What is changed has exactly the ids that its name is composed of. -/
theorem Turn.hasIds_of_changed (h : Turn registry (Uuid.text bits) inv op events r)
    (hinv : inv.All Placed) {p i : String}
    (hne : (inv.after events).find? k (Name.compose k p i) ≠ inv.find? k (Name.compose k p i)) :
    Name.HasIds k (Name.compose k p i) p i := by
  cases hbefore : inv.find? k (Name.compose k p i) with
  | some record => exact (hinv k _ record hbefore).hasIds
  | none =>
    cases hafter : (inv.after events).find? k (Name.compose k p i) with
    | some record => exact (h.placed_of_bits hinv k _ record hafter).hasIds
    | none =>
      rw [hbefore, hafter] at hne
      exact absurd rfl hne

/-- What a creation changes is not kept before, and is a record under the parent that is given. -/
theorem Turn.added_of_changed {parent id : String} {record : k.Record}
    (h : Turn registry (Uuid.text bits) inv (.create parent record id) events r)
    (hne : k.parent?.isSome → parent ≠ "") (hnone : k.parent? = none → parent = "") {name : String}
    (hchanged : (inv.after events).find? k name ≠ inv.find? k name) :
    inv.find? k name = none ∧ ∃ made, (inv.after events).find? k name = some made ∧
      k.reference? made = k.parent?.map fun _ => parent := by
  obtain ⟨-, hsubject⟩ := h.subject_of_changed hchanged
  cases h with
  | idle ht =>
    rw [inv.after_map_asked] at hchanged
    exact absurd rfl hchanged
  | unmade hop hnew ht =>
    rw [inv.after_map_asked] at hchanged
    exact absurd rfl hchanged
  | @made _ place draft made t hop hnew ht =>
    obtain rfl : place.name = name := by
      rw [Operation.subject?_of_draft? hop] at hsubject
      exact Option.some.inj hsubject
    obtain ⟨_, hplace, ⟨⟩⟩ := Option.map_eq_some_iff.1 hop
    rw [Check.toOption_eq_some_iff] at hplace
    obtain ⟨owner, own, howner, -, -, rfl⟩ := Family.eq_under_of_place hplace
    obtain rfl : owner = parent := Place.eq_of_parentOf howner hne hnone
    refine ⟨hnew, made, ?_, ht.reference?_eq⟩
    rw [Inventory.after_append, inv.after_map_asked]
    exact inv.find?_keep_self k _ made

end

/-- A record that refers to the parent with an id has that id in its name. -/
theorem Placed.hasIds_of_reference {k : Kind} {name p : String} {record : k.Record}
    (h : Placed k name record)
    (hreference : k.reference? record = k.parent?.map fun owner => Name.compose owner "" p) :
    ∃ own, Name.HasIds k name p own := by
  cases hk : k.parent? with
  | none =>
    obtain ⟨i, rfl, -⟩ := h.eq_compose_of_root hk
    rw [Name.compose_of_root hk "" p] at h ⊢
    exact ⟨i, h.hasIds⟩
  | some owner =>
    obtain ⟨q, i, rfl, -, -, hparent⟩ := h.exists_reference? hk
    rw [hparent, hk] at hreference
    obtain rfl : q = p := Name.compose_inj.1 (Option.some.inj hreference)
    exact ⟨i, h.hasIds⟩

/-! ## Answers of operations -/

/-- Two scripts in a row are done if the first one is and then the second one. -/
theorem Engine.Script.exists_goes_of_bind {α β : Type} {x : Script α} {f : α → Script β}
    {t : List Exchange} {b : β} (h : (x.bind f).Goes t (.ok b)) :
    ∃ a u, (f a).Goes u (.ok b) := by
  rcases Script.goes_bind_iff.1 h with ⟨e, -, he⟩ | ⟨a, _, u, -, hf, -⟩
  · cases he
  · exact ⟨a, u, hf⟩

section

open Engine.Script (exists_goes_of_bind)

variable {registry : Attach.Registry} {inv : Inventory} {k : Kind} {name : String}

/-- A record that is brought up to date keeps its name. -/
theorem name_of_refresh {record r : k.Record} {t : List Exchange}
    (h : ((k.family registry).refresh inv name record).Goes t (.ok r)) :
    Resource.name r = Resource.name record := by
  -- What is done last in each family gives the record with other parts.
  have hdone {x r' : k.Record} {u : List Exchange} (hend : (Script.done x).Goes u (.ok r')) :
      r' = x := Except.ok.inj (Script.goes_done_iff.1 hend).2
  cases k with
  | subsystem =>
    obtain ⟨rows, _, h⟩ := exists_goes_of_bind h
    obtain ⟨row, _, h⟩ := exists_goes_of_bind h
    rw [hdone h]
    rfl
  | controller =>
    obtain ⟨s, _, h⟩ := exists_goes_of_bind h
    obtain ⟨listener, _, h⟩ := exists_goes_of_bind h
    obtain ⟨rows, _, h⟩ := exists_goes_of_bind h
    split at h
    · rw [hdone h]
      rfl
    · cases (Script.goes_failed_iff.1 h).2
  | nvmeNamespace =>
    obtain ⟨s, _, h⟩ := exists_goes_of_bind h
    obtain ⟨rows, _, h⟩ := exists_goes_of_bind h
    obtain ⟨row, _, h⟩ := exists_goes_of_bind h
    obtain ⟨found, _, h⟩ := exists_goes_of_bind h
    rw [hdone h]
    rfl
  | virtioBlk =>
    obtain ⟨rows, _, h⟩ := exists_goes_of_bind h
    obtain ⟨block, _, h⟩ := exists_goes_of_bind h
    rw [hdone h]
    rfl
  | scsiController =>
    obtain ⟨targets, _, h⟩ := exists_goes_of_bind h
    obtain ⟨_, _, h⟩ := exists_goes_of_bind h
    rw [hdone h]
  | scsiLun =>
    obtain ⟨c, _, h⟩ := exists_goes_of_bind h
    obtain ⟨targets, _, h⟩ := exists_goes_of_bind h
    obtain ⟨target, _, h⟩ := exists_goes_of_bind h
    rw [hdone h]
    rfl

/-- Looking a record up gives a record of the same name as the one that is kept. -/
theorem kept_of_get {r : k.Record} {t : List Exchange}
    (h : (inv.get registry k name).Goes t (.ok r)) :
    ∃ record, inv.find? k name = some record ∧ Resource.name r = Resource.name record := by
  rcases goes_kept_bind h with ⟨-, e, he, -⟩ | ⟨record, hkept, hgo⟩
  · cases he
  · exact ⟨record, hkept, name_of_refresh hgo⟩

/-- Counters are given under the name of a record that is kept. -/
theorem kept_of_stats {r : ResourceStats} {t : List Exchange}
    (h : (inv.stats registry k name).Goes t (.ok r)) :
    r.name = name ∧ ∃ record, inv.find? k name = some record := by
  unfold Inventory.stats at h
  cases hcounters : (k.family registry).counters with
  | error unsupported =>
    rw [hcounters] at h
    obtain ⟨-, hr⟩ := Script.goes_failed_iff.1 h
    cases hr
  | ok counters =>
    rw [hcounters] at h
    rcases goes_kept_bind h with ⟨-, e, he, -⟩ | ⟨record, hkept, hgo⟩
    · cases he
    · rcases Script.goes_bind_iff.1 hgo with ⟨e, -, he⟩ | ⟨stats, _, _, -, hend, -⟩
      · cases he
      · obtain ⟨-, hr⟩ := Script.goes_done_iff.1 hend
        obtain rfl := Except.ok.inj hr
        exact ⟨rfl, record, hkept⟩

end

/-- A procedure that is attempted goes as before and does not fail. -/
theorem Procedure.goes_attempt_iff {α : Type} {x : Procedure α} {t : List Event}
    {r : Except Fault (Except Fault α)} :
    x.attempt.Goes t r ↔ ∃ result, x.Goes t result ∧ r = .ok result := by
  induction x generalizing t with
  | done a =>
    constructor
    · rintro ⟨⟩
      exact ⟨.ok a, .done a, rfl⟩
    · rintro ⟨_, ⟨⟩, rfl⟩
      exact .done _
  | failed e =>
    constructor
    · rintro ⟨⟩
      exact ⟨.error e, .failed e, rfl⟩
    · rintro ⟨_, ⟨⟩, rfl⟩
      exact .done _
  | call request resume ih =>
    constructor
    · intro h
      cases h with
      | call h =>
        obtain ⟨result, hgo, rfl⟩ := (ih _).1 h
        exact ⟨result, .call hgo, rfl⟩
    · rintro ⟨result, h, rfl⟩
      cases h with
      | call h => exact .call ((ih _).2 ⟨result, h, rfl⟩)
  | change c rest ih =>
    constructor
    · intro h
      cases h with
      | change _ h =>
        obtain ⟨result, hgo, rfl⟩ := ih.1 h
        exact ⟨result, .change c hgo, rfl⟩
    · rintro ⟨result, h, rfl⟩
      cases h with
      | change _ h => exact .change c (ih.2 ⟨result, h, rfl⟩)

/-- What is made of the result of a script is given only if the script is done. -/
theorem Procedure.exists_goes_of_map_ofScript {α β : Type} {x : Script α} {f : α → β}
    {events : List Event} {b : β}
    (h : ((Procedure.ofScript x).bind fun a => .done (f a)).Goes events (.ok b)) :
    ∃ a t, x.Goes t (.ok a) ∧ b = f a := by
  obtain ⟨result, hgo, hb⟩ := Procedure.goes_map_iff.1 h
  obtain ⟨t, hgo, -⟩ := Procedure.goes_ofScript_iff.1 hgo
  cases result with
  | ok a => exact ⟨a, t, hgo, Except.ok.inj hb⟩
  | error e => cases hb

/-! ## Requests -/

namespace Rest

variable {registry : Attach.Registry} {counters : Counters} {inv : Inventory} {fresh : String}
  {r : Request} {facet : Facet} {k : Kind} {p i : String}

/-- What comes of an operation as an answer. -/
def Response.ofResult (op : Operation k) : Except Fault (Reply k) → Response
  | .ok reply => .ofReply op reply
  | .error fault => .ofFault fault

/-- An answer as it is sent for a method. -/
def Response.sentFor (method : String) (response : Response) : Response :=
  if method = "HEAD" then response.head else response

/-- An operation is attempted, and its result is answered. -/
theorem serveOperation_eq (op : Operation k) :
    serveOperation registry fresh inv op =
      (inv.perform registry fresh op).attempt.bind fun result =>
        .done (Response.ofResult op result) := by
  unfold serveOperation
  rw [Procedure.bind_eq]
  congr 1
  funext result
  cases result <;> rfl

/-- A request is turned down, or what it asks for is done and answered. -/
theorem goes_serve {events : List Event} {result : Except Fault Response}
    (h : (serve registry counters fresh inv r).Goes events result) :
    (∃ denial, r.demand = .error denial ∧ events = [] ∧
        result = .ok (Response.sentFor r.method (.ofDenial denial))) ∨
      (∃ probe, r.demand = .ok (.probe probe)) ∨
      ∃ (kind : Kind) (op : Operation kind) (reply : Except Fault (Reply kind)),
        r.demand = .ok (.operation kind op) ∧ (inv.perform registry fresh op).Goes events reply ∧
        result = .ok (Response.sentFor r.method (.ofResult op reply)) := by
  unfold serve at h
  cases hdemand : r.demand with
  | error denial =>
    rw [hdemand] at h
    obtain ⟨rfl, rfl⟩ := Procedure.goes_done_iff.1 h
    exact .inl ⟨denial, rfl, rfl, rfl⟩
  | ok demand =>
    rw [hdemand] at h
    obtain ⟨response, hresponse, rfl⟩ :=
      (Procedure.goes_map_iff (f := Response.sentFor r.method)).1 h
    cases demand with
    | probe probe => exact .inr (.inl ⟨probe, rfl⟩)
    | operation kind op =>
      refine .inr (.inr ⟨kind, op, ?_⟩)
      rw [serveDemand, serveOperation_eq] at hresponse
      obtain ⟨reply, hreply, rfl⟩ := Procedure.goes_map_iff.1 hresponse
      obtain ⟨reply, hgo, rfl⟩ := Procedure.goes_attempt_iff.1 hreply
      exact ⟨reply, rfl, hgo, rfl⟩

/-- What a request on a route to records asks for is the operation of its task, with the ids in the
path. -/
theorem exists_operation (hroute : Route.ofPath? r.target.path = some (.records facet k p i))
    {demand : Demand} (h : r.demand = .ok demand) :
    ∃ task pid oid op, (Verb.ofMethod? r.method).bind facet.task? = some task ∧
      pathId p = .ok pid ∧ pathId i = .ok oid ∧ r.operation k pid oid task = .ok op ∧
      demand = .operation k op := by
  rw [Request.demand, hroute] at h
  simp only [Request.demandAt] at h
  split at h
  · cases h
  · rename_i task htask
    obtain ⟨pid, hpid, h⟩ := Check.bind_eq_ok_iff.1 h
    obtain ⟨oid, hoid, h⟩ := Check.bind_eq_ok_iff.1 h
    obtain ⟨op, hop, h⟩ := Check.bind_eq_ok_iff.1 h
    exact ⟨task, pid, oid, op, htask, hpid, hoid, hop, (Except.ok.inj h).symm⟩

/-- How a request on a route to records can go. -/
inductive Served (registry : Attach.Registry) (fresh : String) (inv : Inventory) (r : Request)
    (facet : Facet) (k : Kind) (p i : String) : List Event → Except Fault Response → Prop
  /-- It is turned down before anything is done. -/
  | denied (denial : Denial) : Served registry fresh inv r facet k p i []
      (.ok (Response.sentFor r.method (.ofDenial denial)))
  /-- The operation of its task is carried out with the ids in the path, and answered. -/
  | operated {task : Task} {pid oid : String} {op : Operation k} {events : List Event}
      {reply : Except Fault (Reply k)}
      (htask : (Verb.ofMethod? r.method).bind facet.task? = some task)
      (hpid : pathId p = .ok pid) (hoid : pathId i = .ok oid)
      (hop : r.operation k pid oid task = .ok op)
      (hgo : (inv.perform registry fresh op).Goes events reply) :
      Served registry fresh inv r facet k p i events
        (.ok (Response.sentFor r.method (.ofResult op reply)))

theorem served_of_goes (hroute : Route.ofPath? r.target.path = some (.records facet k p i))
    {events : List Event} {result : Except Fault Response}
    (h : (serve registry counters fresh inv r).Goes events result) :
    Served registry fresh inv r facet k p i events result := by
  rcases goes_serve h with ⟨denial, -, rfl, rfl⟩ | ⟨probe, hdemand⟩ |
    ⟨kind, op, reply, hdemand, hgo, rfl⟩
  · exact .denied denial
  · obtain ⟨_, _, _, _, -, -, -, -, hprobe⟩ := exists_operation hroute hdemand
    cases hprobe
  · obtain ⟨task, pid, oid, op', htask, hpid, hoid, hop, hsame⟩ := exists_operation hroute hdemand
    cases hsame
    exact .operated htask hpid hoid hop hgo

/-- An operation on a record is about the name that is composed of its ids. -/
theorem subject_of_operation {pid oid : String} {task : Task} {op : Operation k}
    (hop : r.operation k pid oid task = .ok op) (htask : task ≠ .create) {name : String}
    (hname : op.subject? registry fresh = some name) : name = Name.compose k pid oid := by
  cases task with
  | create => exact absurd rfl htask
  | list =>
    obtain ⟨_, -, hop⟩ := Check.bind_eq_ok_iff.1 hop
    obtain ⟨_, -, hop⟩ := Check.bind_eq_ok_iff.1 hop
    cases hop
    cases hname
  | get | stats =>
    cases hop
    cases hname
  | update =>
    obtain ⟨request, -, hop⟩ := Check.bind_eq_ok_iff.1 hop
    cases hop
    rw [← Option.some.inj hname]
    cases k <;> rfl
  | delete =>
    obtain ⟨allowMissing, -, hop⟩ := Check.bind_eq_ok_iff.1 hop
    cases hop
    exact (Option.some.inj hname).symm

/-- A name holds exactly the ids of a path, with their escapes replaced. -/
def Addresses (k : Kind) (p i name : String) : Prop :=
  ∃ pid oid, pathId p = .ok pid ∧ pathId i = .ok oid ∧ Name.HasIds k name pid oid

variable {bits : Nat} {events : List Event} {result : Except Fault Response}

/-- What is changed by a request on a route that does not end at a collection is the record with the
ids in the path. -/
theorem addresses_of_changed (hroute : Route.ofPath? r.target.path = some (.records facet k p i))
    (hfacet : facet ≠ .collection) (hinv : inv.All Placed)
    (h : (serve registry counters (Uuid.text bits) inv r).Goes events result) {j : Kind}
    {name : String} (hne : (inv.after events).find? j name ≠ inv.find? j name) :
    j = k ∧ Addresses k p i name := by
  cases served_of_goes hroute h with
  | denied denial => exact absurd rfl hne
  | @operated task pid oid op _ _ htask hpid hoid hop hgo =>
    have hturn := turn_of_goes hgo
    obtain ⟨rfl, hsubject⟩ := hturn.subject_of_changed hne
    have hcreate : task ≠ .create := by
      rintro rfl
      obtain ⟨verb, -, hverb⟩ := Option.bind_eq_some_iff.1 htask
      cases facet <;> cases verb <;> first | exact hfacet rfl | cases hverb
    obtain rfl := subject_of_operation hop hcreate hsubject
    exact ⟨rfl, pid, oid, hpid, hoid, hturn.hasIds_of_changed hinv hne⟩

/-- What is changed by a request to a collection is not kept before, and is a record under the parent
with the id in the path. -/
theorem added_of_changed
    (hroute : Route.ofPath? r.target.path = some (.records .collection k p i))
    (hinv : inv.All Placed)
    (h : (serve registry counters (Uuid.text bits) inv r).Goes events result) {j : Kind}
    {name : String} (hne : (inv.after events).find? j name ≠ inv.find? j name) :
    j = k ∧ inv.find? k name = none ∧ ∃ record pid own,
      (inv.after events).find? k name = some record ∧ pathId p = .ok pid ∧
      k.reference? record = k.parent?.map (fun owner => Name.compose owner "" pid) ∧
      Name.HasIds k name pid own := by
  cases served_of_goes hroute h with
  | denied denial => exact absurd rfl hne
  | @operated task pid oid op _ _ htask hpid hoid hop hgo =>
    have hturn := turn_of_goes hgo
    obtain ⟨rfl, hsubject⟩ := hturn.subject_of_changed hne
    refine ⟨rfl, ?_⟩
    obtain ⟨verb, -, hverb⟩ := Option.bind_eq_some_iff.1 htask
    cases verb with
    | read =>
      cases hverb
      obtain ⟨_, -, hop⟩ := Check.bind_eq_ok_iff.1 hop
      obtain ⟨_, -, hop⟩ := Check.bind_eq_ok_iff.1 hop
      cases hop
      cases hsubject
    | change | remove => cases hverb
    | add =>
      cases hverb
      obtain ⟨id, -, hop⟩ := Check.bind_eq_ok_iff.1 hop
      obtain ⟨draft, -, hop⟩ := Check.bind_eq_ok_iff.1 hop
      cases hop
      have hparent : j.parent?.map (fun _ => parentName j pid) =
          j.parent?.map (fun owner => Name.compose owner "" pid) := by
        unfold parentName
        cases j.parent? <;> rfl
      have hnested : j.parent?.isSome → parentName j pid ≠ "" := by
        intro hsome
        obtain ⟨owner, hk⟩ := Option.isSome_iff_exists.1 hsome
        simp only [parentName, hk]
        exact Name.compose_ne_empty owner "" pid
      have hroot : j.parent? = none → parentName j pid = "" := by
        intro hk
        simp only [parentName, hk]
      obtain ⟨hnew, made, hmade, hreference⟩ := hturn.added_of_changed hnested hroot hne
      rw [hparent] at hreference
      have hplaced := hturn.placed_of_bits hinv j name made hmade
      obtain ⟨own, hown⟩ := hplaced.hasIds_of_reference hreference
      exact ⟨hnew, made, pid, own, hmade, hpid, hreference, hown⟩

/-- A request that reads changes no record. -/
theorem find?_of_read (hroute : Route.ofPath? r.target.path = some (.records facet k p i))
    (hread : Verb.ofMethod? r.method = some .read)
    (h : (serve registry counters (Uuid.text bits) inv r).Goes events result) (j : Kind)
    (name : String) : (inv.after events).find? j name = inv.find? j name := by
  cases served_of_goes hroute h with
  | denied denial => rfl
  | operated htask _ _ hop hgo =>
    rw [hread, Option.bind_some] at htask
    by_contra hne
    obtain ⟨-, hsubject⟩ := (turn_of_goes hgo).subject_of_changed hne
    cases facet with
    | record | counters =>
      cases htask
      cases hop
      cases hsubject
    | collection =>
      cases htask
      obtain ⟨_, -, hop⟩ := Check.bind_eq_ok_iff.1 hop
      obtain ⟨_, -, hop⟩ := Check.bind_eq_ok_iff.1 hop
      cases hop
      cases hsubject

/-- The status with which a failed operation is answered is that of an error. -/
theorem status_ofFault (fault : Fault) : 400 ≤ (Response.ofFault fault).status := by
  show 400 ≤ fault.code.status
  cases fault.code <;> decide

theorem status_ofDenial (denial : Denial) : 400 ≤ (Response.ofDenial denial).status := by
  cases denial <;> decide

theorem status_sentFor (method : String) (response : Response) :
    (response.sentFor method).status = response.status := by
  unfold Response.sentFor
  split <;> rfl

/-- A value that is sent is the one that is answered, unless only the head is sent. -/
theorem content_of_sentFor {method : String} {response : Response} {v : Json}
    (h : (response.sentFor method).content = some (.json v)) :
    response.content = some (.json v) := by
  unfold Response.sentFor at h
  split at h
  · obtain ⟨content, -, hhead⟩ := Option.bind_eq_some_iff.1 h
    cases content <;> cases hhead
  · exact h

/-- The name is written under its key in what is written for counters. -/
theorem lookup?_name_stats (stats : ResourceStats) :
    Json.lookup? ["name"] (ResourceStats.codec.encode stats) = some (.str stats.name) := by
  show Json.lookup? ["name"] (.object [("name", .str stats.name),
    ("stats", VolumeStats.codec.encode stats.stats)]) = _
  exact Json.lookup?_object_head (by simp)

/-- What is answered to a request that reads on a route that does not end at a collection, unless it
is an error, is a record that is kept under exactly the ids in the path, or its counters. -/
theorem addresses_of_answer (hroute : Route.ofPath? r.target.path = some (.records facet k p i))
    (hfacet : facet ≠ .collection) (hread : Verb.ofMethod? r.method = some .read)
    (hinv : inv.All Placed) {response : Response}
    (h : (serve registry counters fresh inv r).Goes events (.ok response))
    (hstatus : response.status < 400) :
    ∃ name record, inv.find? k name = some record ∧ Addresses k p i name ∧
      ∀ v, response.content = some (.json v) → Json.lookup? ["name"] v = some (.str name) := by
  cases served_of_goes hroute h with
  | denied denial =>
    rw [status_sentFor] at hstatus
    exact absurd hstatus (Nat.not_lt.2 (status_ofDenial denial))
  | @operated task pid oid op _ reply htask hpid hoid hop hgo =>
    rw [status_sentFor] at hstatus
    obtain ⟨reply, rfl⟩ : ∃ ok, reply = .ok ok := by
      cases reply with
      | ok reply => exact ⟨reply, rfl⟩
      | error fault => exact absurd hstatus (Nat.not_lt.2 (status_ofFault fault))
    rw [hread, Option.bind_some] at htask
    cases facet with
    | collection => exact absurd rfl hfacet
    | record =>
      cases htask
      cases hop
      obtain ⟨got, t, hget, rfl⟩ := Procedure.exists_goes_of_map_ofScript hgo
      obtain ⟨record, hkept, hname⟩ := kept_of_get hget
      have hplaced := hinv k _ record hkept
      refine ⟨_, record, hkept, ⟨pid, oid, hpid, hoid, hplaced.hasIds⟩, fun v hv => ?_⟩
      obtain rfl := Content.json.inj (Option.some.inj (content_of_sentFor hv))
      rw [k.lookup?_name, hname, hplaced.key]
    | counters =>
      cases htask
      cases hop
      obtain ⟨got, t, hstats, rfl⟩ := Procedure.exists_goes_of_map_ofScript hgo
      obtain ⟨hname, record, hkept⟩ := kept_of_stats hstats
      have hplaced := hinv k _ record hkept
      refine ⟨_, record, hkept, ⟨pid, oid, hpid, hoid, hplaced.hasIds⟩, fun v hv => ?_⟩
      obtain rfl := Content.json.inj (Option.some.inj (content_of_sentFor hv))
      rw [lookup?_name_stats, hname]

/-- After every run that begins with nothing kept, whatever engine it and the request are against: a
request on a route to records whose path holds an id, whatever its query and its body are, changes no
record but the one with exactly the ids in the path; a request to a collection changes a record only
by adding it, and it belongs to the parent with the id in the path; and a request that reads changes
no record, and what it is answered with, unless it is an error, is the record that is kept under
exactly the ids in the path, or its counters. -/
theorem serve_addressed {σ τ : Type} (registry : Attach.Registry) (counters : Counters)
    (engine : σ → Call → Answer × σ) (steps : List Step) (s : σ) (engine' : τ → Call → Answer × τ)
    (s' : τ) (bits : Nat) (r : Request) {facet : Facet} {k : Kind} {p i : String}
    (hroute : Route.ofPath? r.target.path = some (.records facet k p i)) :
    let inv := (Run.of registry engine steps .empty s).inventory
    let course := (serve registry counters (Uuid.text bits) inv r).run engine' s'
    let after := inv.after course.events
    (facet ≠ .collection → ∀ j name, after.find? j name ≠ inv.find? j name →
      j = k ∧ Addresses k p i name) ∧
    (facet = .collection → ∀ j name, after.find? j name ≠ inv.find? j name →
      j = k ∧ inv.find? k name = none ∧ ∃ record pid own, after.find? k name = some record ∧
        pathId p = .ok pid ∧
        k.reference? record = k.parent?.map (fun owner => Name.compose owner "" pid) ∧
        Name.HasIds k name pid own) ∧
    (Verb.ofMethod? r.method = some .read → (∀ j name, after.find? j name = inv.find? j name) ∧
      (facet ≠ .collection → ∀ response, course.result = .ok response → response.status < 400 →
        ∃ name record, inv.find? k name = some record ∧ Addresses k p i name ∧
          ∀ v, response.content = some (.json v) →
            Json.lookup? ["name"] v = some (.str name))) := by
  intro inv course after
  have hinv : inv.All Placed := run_all_placed registry engine steps s
  have hgo : (serve registry counters (Uuid.text bits) inv r).Goes course.events course.result :=
    Procedure.goes_run engine' _ s'
  refine ⟨fun hfacet j name hne => ?_, fun hfacet j name hne => ?_, fun hread => ⟨?_, ?_⟩⟩
  · exact addresses_of_changed hroute hfacet hinv hgo hne
  · subst hfacet
    exact added_of_changed hroute hinv hgo hne
  · intro j name
    exact find?_of_read hroute hread hgo j name
  · intro hfacet response hresult hstatus
    rw [hresult] at hgo
    exact addresses_of_answer hroute hfacet hread hinv hgo hstatus

/-- A subsystem and a controller of it. -/
def attaching : List Step :=
  [⟨.subsystem, .create "" { spec := { nqn := "nqn.2022-09.io.spdk:one" } } "s1", 0⟩,
   ⟨.controller, .create "//storage.bridge.dev/subsystems/s1" { spec := { trtype := .pcie } } "c1",
    0⟩]

/-- A path whose id holds the rest of the controller's name does not lead to the controller, though
the name that it gives is that of the controller. -/
theorem serve_addressed_escaped_slashes :
    let inv := (Run.of {} Engine.Simulation.answer attaching .empty Engine.Simulation.start).inventory
    let r : Request :=
      { method := "DELETE", target := ⟨"/v1/subsystems/s1%2Fcontrollers%2Fc1", ""⟩
        contentType := none, body := [] }
    let course := (serve {} {} (Uuid.text 0) inv r).run Engine.Simulation.answer
      Engine.Simulation.start
    let name := "//storage.bridge.dev/subsystems/s1/controllers/c1"
    Route.ofPath? r.target.path = some (.records .record .subsystem "" "s1%2Fcontrollers%2Fc1") ∧
      pathId "s1%2Fcontrollers%2Fc1" = .ok "s1/controllers/c1" ∧
      Name.compose .subsystem "" "s1/controllers/c1" = name ∧
      (inv.find? .controller name).isSome ∧
      (inv.after course.events).find? .controller name = inv.find? .controller name := by
  intro inv r course name
  have hroute : Route.ofPath? r.target.path =
      some (.records .record .subsystem "" "s1%2Fcontrollers%2Fc1") := by
    decide +kernel
  obtain ⟨hrecord, -, -⟩ := serve_addressed {} {} Engine.Simulation.answer attaching
    Engine.Simulation.start Engine.Simulation.answer Engine.Simulation.start 0 r hroute
  refine ⟨hroute, by decide +kernel, by decide +kernel, by decide +kernel, ?_⟩
  by_contra hne
  obtain ⟨hkind, -⟩ := hrecord nofun .controller name hne
  cases hkind

end Rest

end StorageControl
