/-
# How operations go

An operation goes through at most one script of its family, and through what is left to do when a
record is dropped. Its way says which script that is. From it comes what the operation does to the
inventory and to the engine's objects: it reads at most, or it makes a record, or a record that is
kept is revised or dropped, or a page is cut. The inventory is changed at most once, and never in an
operation that fails.
-/
import StorageControl.Proofs.Family
import StorageControl.Proofs.Name

namespace StorageControl

open Engine (Answer Call Script)
open Engine.Script (Asks Reads)
open Procedure

variable {registry : Attach.Registry} {fresh : String} {inv : Inventory} {k : Kind}

/-! ## What an operation is about -/

/-- The place and the draft of the record that an operation is to make, if there is none yet. -/
def Operation.draft? (registry : Attach.Registry) (fresh : String) :
    Operation k → Option (Place × k.Record)
  | .create parent record id =>
    ((k.family registry).place fresh parent record id).toOption.map (·, record)
  | .update request =>
    let name := Resource.name request.resource
    if request.allowMissing ∧ Check.nameOf k name = .ok () then
      ((k.family registry).place "" ((Name.parent? k name).getD "") request.resource
        (Name.ownId name)).toOption.map (·, request.resource)
    else none
  | .get _ | .list _ | .delete _ | .stats _ => none

/-- The name that an operation may put into the inventory or take out of it. -/
def Operation.subject? (registry : Attach.Registry) (fresh : String) :
    Operation k → Option String
  | .create parent record id =>
    ((k.family registry).place fresh parent record id).toOption.map (·.name)
  | .update request => some (Resource.name request.resource)
  | .delete request => some request.name
  | .get _ | .list _ | .stats _ => none

/-- The place of a new record lies under the parent found for it. -/
theorem Family.eq_under_of_place {parent id : String} {record : k.Record} {place : Place}
    (h : (k.family registry).place fresh parent record id = .ok place) :
    ∃ owner own, Place.parentOf k parent ((k.family registry).reference record) = .ok owner ∧
      (k.family registry).accept record = .ok () ∧ Place.idOf fresh id = .ok own ∧
      place = Place.under k owner own := by
  obtain ⟨owner, howner, h⟩ := Check.bind_eq_ok_iff.1 h
  obtain ⟨_, haccept, h⟩ := Check.bind_eq_ok_iff.1 h
  obtain ⟨own, hown, h⟩ := Check.bind_eq_ok_iff.1 h
  cases h
  exact ⟨owner, own, howner, haccept, hown, rfl⟩

/-- An update that makes its record puts it under the parent and the id in its name. -/
theorem Family.eq_under_of_place_of_nameOf {name : String} {record : k.Record} {place : Place}
    (hname : Check.nameOf k name = .ok ())
    (h : (k.family registry).place "" ((Name.parent? k name).getD "") record (Name.ownId name)
      = .ok place) :
    place = Place.under k ((Name.parent? k name).getD "") (Name.ownId name) := by
  obtain ⟨owner, own, howner, -, hown, rfl⟩ := Family.eq_under_of_place h
  have hid : own = Name.ownId name := by
    rcases Place.eq_of_idOf hown with ⟨hempty, rfl⟩ | ⟨hid, -⟩
    · exact hempty.symm
    · exact hid
  have hparent : owner = (Name.parent? k name).getD "" := by
    apply Place.eq_of_parentOf howner
    · intro hk
      exact Name.parent?_ne_empty (Check.kind?_of_nameOf hname) hk
    · intro hk
      simp [Name.parent?, hk]
  rw [hid, hparent]

/-- So it puts the record where its name says. -/
theorem Family.name_of_place_of_nameOf {name : String} {record : k.Record} {place : Place}
    (hname : Check.nameOf k name = .ok ())
    (h : (k.family registry).place "" ((Name.parent? k name).getD "") record (Name.ownId name)
      = .ok place) : place.name = name := by
  rw [Family.eq_under_of_place_of_nameOf hname h]
  exact Place.name_under_of_nameOf hname

/-- The record that an operation makes is the one that it is about. -/
theorem Operation.subject?_of_draft? {op : Operation k} {place : Place} {draft : k.Record}
    (h : op.draft? registry fresh = some (place, draft)) :
    op.subject? registry fresh = some place.name := by
  cases op with
  | create parent record id =>
    obtain ⟨_, hplace, ⟨⟩⟩ := Option.map_eq_some_iff.1 h
    simp [subject?, hplace]
  | update request =>
    simp only [draft?] at h
    split at h
    · rename_i hallow
      obtain ⟨_, hplace, ⟨⟩⟩ := Option.map_eq_some_iff.1 h
      rw [Check.toOption_eq_some_iff] at hplace
      rw [Family.name_of_place_of_nameOf hallow.2 hplace]
      rfl
    · cases h
  | get | list | delete | stats => cases h

/-- A new record has its place under its parent and a well-formed id, and it has passed the checks
of its family. -/
theorem Operation.placed_of_draft? {bits : Nat} {op : Operation k} {place : Place}
    {draft : k.Record} (h : op.draft? registry (Uuid.text bits) = some (place, draft)) :
    place = Place.under k place.parent place.id ∧ Check.isId place.id = true ∧
      (k.family registry).accept draft = .ok () := by
  cases op with
  | create parent record id =>
    obtain ⟨_, hplace, ⟨⟩⟩ := Option.map_eq_some_iff.1 h
    rw [Check.toOption_eq_some_iff] at hplace
    obtain ⟨owner, own, -, haccept, hown, rfl⟩ := Family.eq_under_of_place hplace
    exact ⟨rfl, Place.isId_of_idOf (fun _ => Uuid.isId_text bits) hown, haccept⟩
  | update request =>
    simp only [draft?] at h
    split at h
    · rename_i hallow
      obtain ⟨_, hplace, ⟨⟩⟩ := Option.map_eq_some_iff.1 h
      rw [Check.toOption_eq_some_iff] at hplace
      obtain ⟨owner, own, -, haccept, hown, rfl⟩ := Family.eq_under_of_place hplace
      -- The id is the one in the name of the record, so none is generated.
      have hne := Name.ownId_ne_empty (Check.kind?_of_nameOf hallow.2)
      exact ⟨rfl, Place.isId_of_idOf (fun hempty => absurd hempty hne) hown, haccept⟩
    · cases h
  | get | list | delete | stats => cases h

/-! ## Ways -/

/-- A fault that is found without the engine: the request is turned down, or there is no such thing,
or the operation is not offered. -/
def Fault.isLocal : Fault → Bool
  | .rejected _ | .unknown _ | .unsupported _ => true
  | .refused _ | .unlisted _ | .unreachable _ | .mismatched _ _ | .declined _ _ | .internal _
  | .misconfigured _ | .malformedValue _ | .inputOutput _ => false

/-- A record that has been made is kept. -/
def keeping (name : String) : Except Fault k.Record → List Event
  | .ok made => [.changed (.keep k name made)]
  | .error _ => []

/-- The ways in which an operation can go, each with the script that it goes through. -/
inductive Way (registry : Attach.Registry) (fresh : String) (inv : Inventory) {k : Kind} :
    Operation k → List Event → Except Fault (Reply k) → Prop
  /-- It is over before the engine is asked. -/
  | settled {op : Operation k} {r : Except Fault (Reply k)}
      (hr : ∀ e, r = .error e → e.isLocal = true) : Way registry fresh inv op [] r
  /-- It brings a record up to date. -/
  | refreshed {name : String} {record : k.Record} {t : List Exchange}
      {r : Except Fault k.Record} (hkept : inv.find? k name = some record)
      (hgo : ((k.family registry).refresh inv name record).Goes t r) :
      Way registry fresh inv (.get name) (t.map .asked) (r.map .record)
  /-- It measures a record. -/
  | measured {name : String} {record : k.Record} {counters : k.Record → Script VolumeStats}
      {t : List Exchange} {r : Except Fault VolumeStats}
      (hcounters : (k.family registry).counters = .ok counters)
      (hkept : inv.find? k name = some record) (hgo : (counters record).Goes t r) :
      Way registry fresh inv (.stats name) (t.map .asked)
        (r.map fun stats => .stats { name, stats })
  /-- It cuts a page of what the engine lists. -/
  | listed {request : ListRequest} {window : Window} {parent : String} {records : List k.Record}
      {t : List Exchange}
      (hwindow : inv.cursors.window request.pageSize request.pageToken = .ok window)
      (hparent : Place.parentOf k request.parent "" = .ok parent)
      (hgo : ((k.family registry).items inv parent).Goes t (.ok records)) :
      Way registry fresh inv (.list request)
        (t.map .asked ++
          [.changed (.hand (inv.cursors.paginate fresh (Inventory.byName records) window).2)])
        (.ok (.page
          { items := (inv.cursors.paginate fresh (Inventory.byName records) window).1.1
            nextPageToken :=
              (inv.cursors.paginate fresh (Inventory.byName records) window).1.2 }))
  /-- There is nothing to cut a page of. -/
  | unlisted {request : ListRequest} {parent : String} {t : List Exchange} {e : Fault}
      (hparent : Place.parentOf k request.parent "" = .ok parent)
      (hgo : ((k.family registry).items inv parent).Goes t (.error e)) :
      Way registry fresh inv (.list request) (t.map .asked) (.error e)
  /-- It makes a record, or fails to. -/
  | attempted {op : Operation k} {place : Place} {draft : k.Record} {t : List Exchange}
      {made : Except Fault k.Record} (hop : op.draft? registry fresh = some (place, draft))
      (hnew : inv.find? k place.name = none)
      (hgo : ((k.family registry).make inv place draft).Goes t made) :
      Way registry fresh inv op (t.map .asked ++ keeping place.name made) (made.map .record)
  /-- It revises a record. -/
  | revised {request : UpdateRequest k.Record} {kept revised : k.Record}
      (hsupported : (k.family registry).updateUnsupported = none)
      (hkept : inv.find? k (Resource.name request.resource) = some kept)
      (hrevise : Inventory.revise kept request = .ok revised) :
      Way registry fresh inv (.update request)
        [.changed (.keep k (Resource.name request.resource) revised)] (.ok (.record revised))
  /-- It drops a record, and does what is left to do then. -/
  | dropped {request : DeleteRequest} {record : k.Record} {t u : List Exchange}
      (hkept : inv.find? k request.name = some record)
      (hgo : ((k.family registry).release inv request.name record).Goes t (.ok ()))
      (htidy : ((k.family registry).tidy record).Goes u (.ok ())) :
      Way registry fresh inv (.delete request)
        (t.map .asked ++ .changed (.drop k request.name) :: u.map .asked) (.ok .deleted)
  /-- It does not drop a record. -/
  | held {request : DeleteRequest} {record : k.Record} {t : List Exchange} {e : Fault}
      (hkept : inv.find? k request.name = some record)
      (hgo : ((k.family registry).release inv request.name record).Goes t (.error e)) :
      Way registry fresh inv (.delete request) (t.map .asked) (.error e)

/-- Creating a record is over before the engine is asked, since there is no place for it or a record
is kept there, or there is none and it is made. It is kept when that succeeds. -/
theorem goes_create {parent id : String} {record : k.Record} {events : List Event}
    {r : Except Fault k.Record}
    (h : (inv.create registry k fresh parent record id).Goes events r) :
    (events = [] ∧ ((∃ why, (k.family registry).place fresh parent record id = .error why ∧
        r = .error (.rejected why)) ∨
      ∃ place kept, (k.family registry).place fresh parent record id = .ok place ∧
        inv.find? k place.name = some kept ∧ r = .ok kept)) ∨
      ∃ place t, (k.family registry).place fresh parent record id = .ok place ∧
        inv.find? k place.name = none ∧
        ((k.family registry).make inv place record).Goes t r ∧
        events = t.map .asked ++ keeping place.name r := by
  rcases goes_check_bind_iff.1 h with ⟨why, hplace, rfl, rfl⟩ | ⟨place, hplace, hmake⟩
  · exact .inl ⟨rfl, .inl ⟨why, hplace, rfl⟩⟩
  cases hfind : inv.find? k place.name with
  | some kept =>
    rw [hfind] at hmake
    obtain ⟨rfl, rfl⟩ := goes_done_iff.1 hmake
    exact .inl ⟨rfl, .inr ⟨place, kept, hplace, hfind, rfl⟩⟩
  | none =>
    rw [hfind] at hmake
    rcases goes_ofScript_bind_iff.1 hmake with ⟨t, e, hgo, rfl, rfl⟩ |
      ⟨made, t, rest, hgo, hkeep, rfl⟩
    · exact .inr ⟨place, t, hplace, hfind, hgo, (List.append_nil _).symm⟩
    · obtain ⟨rest, rfl, hend⟩ := goes_make_bind_iff.1 hkeep
      obtain ⟨rfl, rfl⟩ := goes_done_iff.1 hend
      exact .inr ⟨place, t, hplace, hfind, hgo, rfl⟩

/-- A record is created if there is a place for it and none is kept there. -/
theorem goes_create_of_new {parent id : String} {record : k.Record} {place : Place}
    {events : List Event} {r : Except Fault k.Record}
    (hplace : (k.family registry).place fresh parent record id = .ok place)
    (hnew : inv.find? k place.name = none)
    (h : (inv.create registry k fresh parent record id).Goes events r) :
    ∃ t, ((k.family registry).make inv place record).Goes t r ∧
      events = t.map .asked ++ keeping place.name r := by
  rcases goes_create h with ⟨-, ⟨_, hwhy, -⟩ | ⟨_, _, hplace', hkept, -⟩⟩ |
    ⟨_, t, hplace', -, hgo, rfl⟩
  · rw [hplace] at hwhy
    cases hwhy
  · obtain rfl := Except.ok.inj (hplace.symm.trans hplace')
    rw [hnew] at hkept
    cases hkept
  · obtain rfl := Except.ok.inj (hplace.symm.trans hplace')
    exact ⟨t, hgo, rfl⟩

/-- An operation that is to make a record does so if none is kept in its place. -/
theorem goes_of_draft? {op : Operation k} {place : Place} {draft : k.Record} {events : List Event}
    {r : Except Fault (Reply k)} (hop : op.draft? registry fresh = some (place, draft))
    (hnew : inv.find? k place.name = none)
    (hsupported : (k.family registry).updateUnsupported = none)
    (h : (inv.perform registry fresh op).Goes events r) :
    ∃ t made, ((k.family registry).make inv place draft).Goes t made ∧
      events = t.map .asked ++ keeping place.name made ∧ r = made.map .record := by
  cases op with
  | create parent record id =>
    obtain ⟨_, hplace, ⟨⟩⟩ := Option.map_eq_some_iff.1 hop
    rw [Check.toOption_eq_some_iff] at hplace
    obtain ⟨made, hcreate, rfl⟩ := goes_map_iff.1 h
    obtain ⟨t, hgo, rfl⟩ := goes_create_of_new hplace hnew hcreate
    exact ⟨t, made, hgo, rfl, rfl⟩
  | update request =>
    simp only [Operation.draft?] at hop
    split at hop
    · rename_i hallow
      obtain ⟨_, hplace, ⟨⟩⟩ := Option.map_eq_some_iff.1 hop
      rw [Check.toOption_eq_some_iff] at hplace
      obtain ⟨made, hupdate, rfl⟩ := goes_map_iff.1 h
      have hname := Family.name_of_place_of_nameOf hallow.2 hplace
      have hmissing : inv.find? k (Resource.name request.resource) = none := by
        rw [← hname]
        exact hnew
      simp only [Inventory.update, hsupported, hallow.2, hmissing, hallow.1, if_true] at hupdate
      obtain ⟨t, hgo, rfl⟩ := goes_create_of_new hplace hnew hupdate
      exact ⟨t, made, hgo, rfl, rfl⟩
    · cases hop
  | get | list | delete | stats => cases hop

/-- Deleting a record that is kept is over before the engine is asked if its name does not pass the
check. Otherwise the record is dropped, and then tidied up after, if its object is removed. -/
theorem goes_delete_of_kept {request : DeleteRequest} {record : k.Record} {events : List Event}
    {r : Except Fault Unit} (hkept : inv.find? k request.name = some record)
    (h : (inv.delete registry k request).Goes events r) :
    (∃ why, Check.required "name" request.name = .error why ∧ events = [] ∧
        r = .error (.rejected why)) ∨
      (∃ t e, ((k.family registry).release inv request.name record).Goes t (.error e) ∧
        events = t.map .asked ∧ r = .error e) ∨
      ∃ t u, ((k.family registry).release inv request.name record).Goes t (.ok ()) ∧
        ((k.family registry).tidy record).Goes u (.ok ()) ∧
        events = t.map .asked ++ .changed (.drop k request.name) :: u.map .asked ∧ r = .ok () := by
  rcases goes_check_bind_iff.1 h with ⟨why, hwhy, rfl, rfl⟩ | ⟨_, -, hdelete⟩
  · exact .inl ⟨why, hwhy, rfl, rfl⟩
  rw [hkept] at hdelete
  rcases goes_ofScript_bind_iff.1 hdelete with ⟨t, e, hgo, rfl, rfl⟩ |
    ⟨_, t, rest, hgo, hdrop, rfl⟩
  · exact .inr (.inl ⟨t, e, hgo, rfl, rfl⟩)
  · -- The record goes at once, before anything is tidied up.
    obtain ⟨rest, rfl, htidy⟩ := goes_make_bind_iff.1 hdrop
    obtain ⟨u, hgo', rfl⟩ := goes_ofScript_iff.1 htidy
    obtain rfl := (goes_tidy hgo').2
    exact .inr (.inr ⟨t, u, hgo, hgo', rfl, rfl⟩)

/-- Updating a record that is kept is over before anything has been done, or it keeps the revised
record. -/
theorem goes_update_of_kept {request : UpdateRequest k.Record} {kept : k.Record}
    {events : List Event} {r : Except Fault k.Record}
    (hkept : inv.find? k (Resource.name request.resource) = some kept)
    (h : (inv.update registry k request).Goes events r) :
    (events = [] ∧ ∃ e, r = .error e ∧ e.isLocal = true) ∨
      ∃ revised, (k.family registry).updateUnsupported = none ∧
        Inventory.revise kept request = .ok revised ∧ r = .ok revised ∧
        events = [.changed (.keep k (Resource.name request.resource) revised)] := by
  unfold Inventory.update at h
  cases hsupported : (k.family registry).updateUnsupported with
  | some unsupported =>
    rw [hsupported] at h
    obtain ⟨rfl, rfl⟩ := goes_failed_iff.1 h
    exact .inl ⟨rfl, _, rfl, rfl⟩
  | none =>
    rw [hsupported] at h
    rcases goes_check_bind_iff.1 h with ⟨why, -, rfl, rfl⟩ | ⟨_, -, hupdate⟩
    · exact .inl ⟨rfl, _, rfl, rfl⟩
    rw [hkept] at hupdate
    rcases goes_check_bind_iff.1 hupdate with ⟨why, -, rfl, rfl⟩ | ⟨revised, hrevise, hkeep⟩
    · exact .inl ⟨rfl, _, rfl, rfl⟩
    obtain ⟨rest, rfl, hend⟩ := goes_make_bind_iff.1 hkeep
    obtain ⟨rfl, rfl⟩ := goes_done_iff.1 hend
    exact .inr ⟨revised, rfl, hrevise, rfl, rfl⟩

/-- Looking a kept record up is over before the engine is asked if there is none. -/
theorem goes_kept_bind {α : Type} {name : String} {f : k.Record → Script α} {t : List Exchange}
    {r : Except Fault α} (h : ((inv.kept k name).bind f).Goes t r) :
    (t = [] ∧ ∃ e, r = .error e ∧ e.isLocal = true) ∨
      ∃ record, inv.find? k name = some record ∧ (f record).Goes t r := by
  simp only [Inventory.kept, Script.bind_eq, Script.bind_assoc] at h
  rcases Script.goes_check_bind_iff.1 h with ⟨why, -, rfl, rfl⟩ | ⟨_, -, h⟩
  · exact .inl ⟨rfl, _, rfl, rfl⟩
  rcases Script.goes_demand_bind_iff.1 h with ⟨-, rfl, rfl⟩ | ⟨record, hkept, h⟩
  · exact .inl ⟨rfl, _, rfl, rfl⟩
  · exact .inr ⟨record, hkept, h⟩

/-- A window cannot be had for a reason that lies in the request. -/
theorem Cursors.isLocal_of_window {cursors : Cursors} {pageSize : Int32} {pageToken : String}
    {e : Fault} (h : cursors.window pageSize pageToken = .error e) : e.isLocal = true := by
  unfold Cursors.window at h
  split at h
  · cases h
    rfl
  split at h
  · cases h
  split at h
  · cases h
  · cases h
    rfl

namespace Way

/-- A way that ends at once with a fault of the request. -/
theorem local_fault {op : Operation k} {e : Fault} (he : e.isLocal = true) :
    Way registry fresh inv op [] (.error e) := by
  refine .settled ?_
  rintro _ ⟨⟩
  exact he

/-- Creating is a way of every operation that is to make a record of what is created. -/
theorem of_create {op : Operation k} {fresh' parent id : String} {record : k.Record}
    (hop : ∀ place, (k.family registry).place fresh' parent record id = .ok place →
      op.draft? registry fresh = some (place, record)) {events : List Event}
    {r : Except Fault k.Record}
    (h : (inv.create registry k fresh' parent record id).Goes events r) :
    Way registry fresh inv op events (r.map .record) := by
  rcases goes_create h with ⟨rfl, ⟨why, -, rfl⟩ | ⟨_, kept, -, -, rfl⟩⟩ |
    ⟨place, t, hplace, hnew, hgo, rfl⟩
  · exact local_fault rfl
  · exact .settled nofun
  · exact .attempted (hop place hplace) hnew hgo

theorem of_get {name : String} {events : List Event} {r : Except Fault k.Record}
    (h : (ofScript (inv.get registry k name)).Goes events r) :
    Way registry fresh inv (.get name) events (r.map .record) := by
  obtain ⟨t, hget, rfl⟩ := goes_ofScript_iff.1 h
  rcases goes_kept_bind hget with ⟨rfl, e, rfl, he⟩ | ⟨record, hkept, hgo⟩
  · exact local_fault he
  · exact .refreshed hkept hgo

theorem of_stats {name : String} {events : List Event} {r : Except Fault ResourceStats}
    (h : (ofScript (inv.stats registry k name)).Goes events r) :
    Way registry fresh inv (.stats name : Operation k) events (r.map .stats) := by
  obtain ⟨t, hstats, rfl⟩ := goes_ofScript_iff.1 h
  unfold Inventory.stats at hstats
  cases hcounters : (k.family registry).counters with
  | error unsupported =>
    rw [hcounters] at hstats
    obtain ⟨rfl, rfl⟩ := Script.goes_failed_iff.1 hstats
    exact local_fault rfl
  | ok counters =>
    rw [hcounters] at hstats
    rcases goes_kept_bind hstats with ⟨rfl, e, rfl, he⟩ | ⟨record, hkept, hgo⟩
    · exact local_fault he
    · rcases Script.goes_bind_iff.1 hgo with ⟨e, hcount, rfl⟩ |
        ⟨stats, t₁, t₂, hcount, hend, rfl⟩
      · exact .measured (r := .error e) hcounters hkept hcount
      · obtain ⟨rfl, rfl⟩ := Script.goes_done_iff.1 hend
        rw [List.append_nil]
        exact .measured (r := .ok stats) hcounters hkept hcount

theorem of_list {request : ListRequest} {events : List Event} {r : Except Fault (Page k.Record)}
    (h : (inv.list registry k fresh request).Goes events r) :
    Way registry fresh inv (.list request) events (r.map .page) := by
  rcases goes_settle_bind_iff.1 h with ⟨e, hwindow, rfl, rfl⟩ | ⟨window, hwindow, hparent⟩
  · exact local_fault (Cursors.isLocal_of_window hwindow)
  rcases goes_check_bind_iff.1 hparent with ⟨why, -, rfl, rfl⟩ | ⟨parent, hfound, hitems⟩
  · exact local_fault rfl
  rcases goes_ofScript_bind_iff.1 hitems with ⟨t, e, hgo, rfl, rfl⟩ |
    ⟨records, t, rest, hgo, hcut, rfl⟩
  · exact .unlisted hfound hgo
  · obtain ⟨rest, rfl, hend⟩ := goes_make_bind_iff.1 hcut
    obtain ⟨rfl, rfl⟩ := goes_done_iff.1 hend
    exact .listed hwindow hfound hgo

theorem of_update {request : UpdateRequest k.Record} {events : List Event}
    {r : Except Fault k.Record} (h : (inv.update registry k request).Goes events r) :
    Way registry fresh inv (.update request) events (r.map .record) := by
  cases hfind : inv.find? k (Resource.name request.resource) with
  | some kept =>
    rcases goes_update_of_kept hfind h with ⟨rfl, e, rfl, he⟩ |
      ⟨revised, hsupported, hrevise, rfl, rfl⟩
    · exact local_fault he
    · exact .revised hsupported hfind hrevise
  | none =>
    unfold Inventory.update at h
    cases hsupported : (k.family registry).updateUnsupported with
    | some unsupported =>
      rw [hsupported] at h
      obtain ⟨rfl, rfl⟩ := goes_failed_iff.1 h
      exact local_fault rfl
    | none =>
      rw [hsupported] at h
      rcases goes_check_bind_iff.1 h with ⟨why, -, rfl, rfl⟩ | ⟨_, hname, hupdate⟩
      · exact local_fault rfl
      -- An update that may create goes on as a creation under the name in the request.
      simp only [hfind] at hupdate
      split at hupdate
      · rename_i hallow
        refine of_create (fun place hplace => ?_) hupdate
        simp [Operation.draft?, hallow, hname, hplace, Except.toOption]
      · obtain ⟨rfl, rfl⟩ := goes_failed_iff.1 hupdate
        exact local_fault rfl

theorem of_delete {request : DeleteRequest} {events : List Event} {r : Except Fault Unit}
    (h : (inv.delete registry k request).Goes events r) :
    Way registry fresh inv (.delete request : Operation k) events
      (r.map fun _ => .deleted) := by
  cases hfind : inv.find? k request.name with
  | some record =>
    rcases goes_delete_of_kept hfind h with ⟨why, -, rfl, rfl⟩ | ⟨t, e, hgo, rfl, rfl⟩ |
      ⟨t, u, hgo, htidy, rfl, rfl⟩
    · exact local_fault rfl
    · exact .held hfind hgo
    · exact .dropped hfind hgo htidy
  | none =>
    rcases goes_check_bind_iff.1 h with ⟨why, -, rfl, rfl⟩ | ⟨_, -, hdelete⟩
    · exact local_fault rfl
    simp only [hfind] at hdelete
    split at hdelete
    · obtain ⟨rfl, rfl⟩ := goes_done_iff.1 hdelete
      exact .settled nofun
    · obtain ⟨rfl, rfl⟩ := goes_failed_iff.1 hdelete
      exact local_fault rfl

end Way

/-- Whatever the engine answers, an operation goes one of its ways. -/
theorem way_of_goes {op : Operation k} {events : List Event} {r : Except Fault (Reply k)}
    (h : (inv.perform registry fresh op).Goes events r) : Way registry fresh inv op events r := by
  cases op with
  | create parent record id =>
    obtain ⟨r, hcreate, rfl⟩ := goes_map_iff.1 h
    refine Way.of_create (fun place hplace => ?_) hcreate
    simp [Operation.draft?, hplace, Except.toOption]
  | get name =>
    obtain ⟨r, hget, rfl⟩ := goes_map_iff.1 h
    exact Way.of_get hget
  | list request =>
    obtain ⟨r, hlist, rfl⟩ := goes_map_iff.1 h
    exact Way.of_list hlist
  | update request =>
    obtain ⟨r, hupdate, rfl⟩ := goes_map_iff.1 h
    exact Way.of_update hupdate
  | delete request =>
    obtain ⟨r, hdelete, rfl⟩ := goes_map_iff.1 h
    exact Way.of_delete hdelete
  | stats name =>
    obtain ⟨r, hstats, rfl⟩ := goes_map_iff.1 h
    exact Way.of_stats hstats

/-- Whatever an operation is done against, it goes one of its ways. -/
theorem way_of_run {σ : Type} (registry : Attach.Registry) (fresh : String) (inv : Inventory)
    (op : Operation k) (engine : σ → Call → Answer × σ) (s : σ) :
    Way registry fresh inv op ((inv.perform registry fresh op).run engine s).events
      ((inv.perform registry fresh op).run engine s).result :=
  way_of_goes (goes_run engine _ s)

/-! ## Turns -/

/-- What an operation may ask and change, and what may come of it. -/
inductive Turn (registry : Attach.Registry) (fresh : String) (inv : Inventory) {k : Kind} :
    Operation k → List Event → Except Fault (Reply k) → Prop
  /-- It changes nothing and reads at most. -/
  | idle {op : Operation k} {t : List Exchange} {r : Except Fault (Reply k)}
      (ht : KeepsObjects t) : Turn registry fresh inv op (t.map .asked) r
  /-- It cuts a page, and at most the fresh token is handed out. -/
  | paged {request : ListRequest} {t : List Exchange} {page : Page k.Record} {cursors : Cursors}
      (ht : KeepsObjects t)
      (hcursors : cursors = inv.cursors ∨ ∃ offset, cursors = inv.cursors.insert fresh offset) :
      Turn registry fresh inv (.list request) (t.map .asked ++ [.changed (.hand cursors)])
        (.ok (.page page))
  /-- It makes a record. -/
  | made {op : Operation k} {place : Place} {draft made : k.Record} {t : List Exchange}
      (hop : op.draft? registry fresh = some (place, draft)) (hnew : inv.find? k place.name = none)
      (ht : Made registry inv place k draft made t) :
      Turn registry fresh inv op (t.map .asked ++ [.changed (.keep k place.name made)])
        (.ok (.record made))
  /-- It fails to make a record. -/
  | unmade {op : Operation k} {place : Place} {draft : k.Record} {t : List Exchange} {e : Fault}
      (hop : op.draft? registry fresh = some (place, draft)) (hnew : inv.find? k place.name = none)
      (ht : Unmade registry inv place k draft t) :
      Turn registry fresh inv op (t.map .asked) (.error e)
  /-- It revises a record. -/
  | revised {request : UpdateRequest k.Record} {kept revised : k.Record}
      (hsupported : (k.family registry).updateUnsupported = none)
      (hkept : inv.find? k (Resource.name request.resource) = some kept)
      (hrevise : Inventory.revise kept request = .ok revised) :
      Turn registry fresh inv (.update request)
        [.changed (.keep k (Resource.name request.resource) revised)] (.ok (.record revised))
  /-- It drops a record when the engine has removed its object. -/
  | dropped {request : DeleteRequest} {record : k.Record} {call : Call} {t : List Exchange}
      (hkept : inv.find? k request.name = some record)
      (hcall : removal registry inv request.name k record = some call) (ht : KeepsObjects t) :
      Turn registry fresh inv (.delete request)
        (.asked (.granted call) :: .changed (.drop k request.name) :: t.map .asked) (.ok .deleted)
  /-- It does not drop a record because the engine does not remove its object. -/
  | held {request : DeleteRequest} {record : k.Record} {call : Call} {answer : Answer} {e : Fault}
      (hkept : inv.find? k request.name = some record)
      (hcall : removal registry inv request.name k record = some call)
      (hanswer : answer ≠ .ok (.bool true)) :
      Turn registry fresh inv (.delete request) [.asked ⟨call, answer⟩] (.error e)

theorem Turn.silent {op : Operation k} {r : Except Fault (Reply k)} :
    Turn registry fresh inv op [] r :=
  .idle keepsObjects_nil

/-- Cutting a page hands out at most the fresh token. -/
theorem Cursors.paginate_cursors {α : Type} (cursors : Cursors) (token : String) (items : List α)
    (w : Window) : (cursors.paginate token items w).2 = cursors ∨
      ∃ offset, (cursors.paginate token items w).2 = cursors.insert token offset := by
  unfold Cursors.paginate
  split
  split
  · exact .inr ⟨_, rfl⟩
  · exact .inl rfl

/-- The turn that an operation takes when it goes a way. -/
theorem Turn.of_way {op : Operation k} {events : List Event} {r : Except Fault (Reply k)}
    (h : Way registry fresh inv op events r) : Turn registry fresh inv op events r := by
  cases h with
  | settled => exact silent
  | refreshed hkept hgo => exact .idle ((refresh_queries registry inv _ _).reads _ _ hgo)
  | measured hcounters hkept hgo => exact .idle ((counters_queries registry hcounters _).reads _ _ hgo)
  | listed hwindow hparent hgo =>
    exact .paged ((items_queries registry inv _ k).reads _ _ hgo)
      (Cursors.paginate_cursors inv.cursors fresh _ _)
  | unlisted hparent hgo => exact .idle ((items_queries registry inv _ k).reads _ _ hgo)
  | attempted hop hnew hgo =>
    rcases goes_make hgo with ⟨made, rfl, ht⟩ | ⟨e, rfl, ht⟩
    · exact .made hop hnew ht
    · rw [keeping, List.append_nil]
      exact .unmade hop hnew ht
  | revised hsupported hkept hrevise => exact .revised hsupported hkept hrevise
  | dropped hkept hgo htidy =>
    rcases goes_release hgo with ⟨-, -, _, hr⟩ | ⟨call, answer, hcall, rfl, ⟨rfl, -⟩ | ⟨-, _, hr⟩⟩
    · cases hr
    · exact .dropped hkept hcall (goes_tidy htidy).1
    · cases hr
  | held hkept hgo =>
    rcases goes_release hgo with ⟨-, rfl, -⟩ | ⟨call, answer, hcall, rfl, ⟨-, hr⟩ | ⟨hno, -⟩⟩
    · exact silent
    · cases hr
    · exact .held hkept hcall hno

/-- Whatever the engine answers, an operation takes one of its turns. -/
theorem turn_of_goes {op : Operation k} {events : List Event} {r : Except Fault (Reply k)}
    (h : (inv.perform registry fresh op).Goes events r) : Turn registry fresh inv op events r :=
  .of_way (way_of_goes h)

end StorageControl
