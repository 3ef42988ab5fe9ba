/-
# Deleting what has just been made

A record that is made comes with an object of its own, and everything that its deletion asks for is
worked out again from the record and its parent. The object is named in the engine by a qualified
name, an id, an address or a number, and until then nothing had that name. So the deletion finds
this one object and no other, and what is kept and what the engine holds are as they were before.
-/
import StorageControl.Proofs.Placement
import StorageControl.Proofs.Roots

namespace StorageControl

open Engine (Answer Call Method Simulation)
open Engine.Simulation (SameObjects)
open Procedure (goes_map_iff goes_run plays_append plays_run)
open Text (Whole)

/-! ## Putting in and taking out -/

/-- Keeping a record under a new name and dropping it again leaves the inventory as it was. -/
theorem Inventory.drop_keep {inv : Inventory} {k : Kind} {name : String}
    (hnew : inv.find? k name = none) (record : k.Record) :
    (inv.keep k name record).drop k name = inv := by
  refine ext_table (fun j => ?_) (by rw [cursors_drop, cursors_keep])
  by_cases hj : j = k
  · subst hj
    rw [drop, table_withTable_self, keep, table_withTable_self]
    exact Table.erase_insert hnew record
  · rw [table_drop_of_ne _ hj, table_keep_of_ne _ hj]

/-- A filter that drops only the last entry of a list leaves the others. -/
theorem filter_append_of_free {α : Type} {p : α → Bool} {l : List α} {a : α}
    (hfree : l.any p = false) (ha : p a = true) : (l ++ [a]).filter (fun b => !p b) = l := by
  have hrest : l.filter (fun b => !p b) = l := by
    rw [List.filter_eq_self]
    intro b hb
    rw [List.any_eq_false] at hfree
    simpa using hfree b hb
  rw [List.filter_append, hrest]
  simp [ha]

/-! ## Objects that are taken back -/

namespace Engine.Simulation

variable {s s' : Simulation}

/-- A subsystem that has just been made is deleted without trace. -/
theorem deleteSubsystem_takes_back {nqn : String} {row : SubsystemRow}
    (hfree : s.subsystems.find? nqn = none)
    (hsubsystems : s'.subsystems = s.subsystems.insert nqn row) (hvhosts : s'.vhosts = s.vhosts) :
    ∃ s₁, s'.answer (Method.deleteSubsystem.on SubsystemRef.codec ⟨nqn⟩) =
      (.ok (.bool true), s₁) ∧ SameObjects s s₁ := by
  rcases s'.answer_deleteSubsystem nqn with ⟨_, -, h⟩ | ⟨_, hmissing, -⟩
  · refine ⟨_, h, ?_, hvhosts⟩
    show s'.subsystems.erase nqn = s.subsystems
    rw [hsubsystems, Table.erase_insert hfree]
  · rw [hsubsystems, Table.find?_insert_self] at hmissing
    cases hmissing

/-- A listener that has just been added is removed without trace. -/
theorem removeListener_takes_back {listener : Listener} {row : SubsystemRow}
    (hrow : s.subsystems.find? listener.nqn = some row)
    (hfree : row.listenAddresses.any (·.sameEndpoint listener.listenAddress) = false)
    (hsubsystems : s'.subsystems = s.subsystems.insert listener.nqn
      { row with listenAddresses := row.listenAddresses ++ [listener.listenAddress] })
    (hvhosts : s'.vhosts = s.vhosts) :
    ∃ s₁, s'.answer (Method.removeListener.on Listener.codec listener) =
      (.ok (.bool true), s₁) ∧ SameObjects s s₁ := by
  have hself : listener.listenAddress.sameEndpoint listener.listenAddress = true := by
    simp [ListenAddress.sameEndpoint]
  have hthere := Table.find?_insert_self s.subsystems listener.nqn
    { row with listenAddresses := row.listenAddresses ++ [listener.listenAddress] }
  rw [← hsubsystems] at hthere
  refine ⟨_, answer_removeListener_of_used hthere (by simp [hself]), ?_, hvhosts⟩
  show s'.subsystems.insert listener.nqn _ = s.subsystems
  rw [hsubsystems, Table.insert_insert]
  simp only [filter_append_of_free hfree hself]
  exact Table.insert_eq_self hrow

/-- A namespace that has just been attached is detached without trace. -/
theorem removeNamespace_takes_back {nqn : String} {row : SubsystemRow} {attached : NamespaceRow}
    (hrow : s.subsystems.find? nqn = some row)
    (hfree : row.namespaces.any (·.nsid == attached.nsid) = false)
    (hsubsystems : s'.subsystems = s.subsystems.insert nqn
      { row with namespaces := row.namespaces ++ [attached] })
    (hvhosts : s'.vhosts = s.vhosts) :
    ∃ s₁, s'.answer (Method.removeNamespace.on RemoveNamespace.codec ⟨nqn, attached.nsid⟩) =
      (.ok (.bool true), s₁) ∧ SameObjects s s₁ := by
  have hself : (attached.nsid == attached.nsid) = true := beq_self_eq_true _
  have hthere := Table.find?_insert_self s.subsystems nqn
    { row with namespaces := row.namespaces ++ [attached] }
  rw [← hsubsystems] at hthere
  refine ⟨_, answer_removeNamespace_of_used (p := ⟨nqn, attached.nsid⟩) hthere (by simp), ?_,
    hvhosts⟩
  show s'.subsystems.insert nqn _ = s.subsystems
  rw [hsubsystems, Table.insert_insert]
  simp only [bne, filter_append_of_free hfree hself]
  exact Table.insert_eq_self hrow

/-- A vhost controller that has just been made is deleted without trace. -/
theorem deleteVhost_takes_back {id : String} {row : VhostRow} (hfree : s.vhosts.find? id = none)
    (hsubsystems : s'.subsystems = s.subsystems) (hvhosts : s'.vhosts = s.vhosts.insert id row) :
    ∃ s₁, s'.answer (Method.deleteVhostController.on VhostRef.codec ⟨id⟩) =
      (.ok (.bool true), s₁) ∧ SameObjects s s₁ := by
  rcases s'.answer_deleteVhost ⟨id⟩ with ⟨_, -, h⟩ | ⟨_, hmissing, -⟩
  · refine ⟨_, h, hsubsystems, ?_⟩
    show s'.vhosts.erase id = s.vhosts
    rw [hvhosts, Table.erase_insert hfree]
  · rw [hvhosts, Table.find?_insert_self] at hmissing
    cases hmissing

/-- A target that has just been added is removed without trace. -/
theorem removeTarget_takes_back {id : String} {row : VhostRow} {targets : List TargetRow}
    {added : TargetRow} (hrow : s.vhosts.find? id = some row)
    (htargets : row.backend.scsi = some targets)
    (hfree : usesTarget targets added.scsiDevNum = false) (hsubsystems : s'.subsystems = s.subsystems)
    (hvhosts : s'.vhosts = s.vhosts.insert id
      { row with backend := { row.backend with scsi := some (targets ++ [added]) } }) :
    ∃ s₁, s'.answer (Method.removeTarget.on RemoveTarget.codec ⟨id, added.scsiDevNum⟩) =
      (.ok (.bool true), s₁) ∧ SameObjects s s₁ := by
  have hself : (added.scsiDevNum == added.scsiDevNum) = true := beq_self_eq_true _
  have hthere := Table.find?_insert_self s.vhosts id
    { row with backend := { row.backend with scsi := some (targets ++ [added]) } }
  rw [← hvhosts] at hthere
  refine ⟨_, answer_removeTarget_of_used (p := ⟨id, added.scsiDevNum⟩) hthere rfl
    (by simp [usesTarget]), hsubsystems, ?_⟩
  show s'.vhosts.insert id _ = s.vhosts
  rw [hvhosts, Table.insert_insert]
  simp only [bne, filter_append_of_free hfree hself, ← htargets]
  exact Table.insert_eq_self hrow

end Engine.Simulation

section

variable {registry : Attach.Registry} {inv : Inventory} {place : Place} {k : Kind}
  {s s' : Simulation}

/-- The call that removes the object of a made record is granted, and then the engine holds what it
held before. -/
theorem Gain.undone {record : k.Record} (h : Gain registry inv place s s' k record)
    (hplace : place = Place.under k place.parent place.id) (hid : Whole '/' place.id) :
    ∃ call, removal registry (inv.keep k place.name record) place.name k record = some call ∧
      ∃ s₁, s'.answer call = (.ok (.bool true), s₁) ∧ SameObjects s s₁ := by
  -- Keeping a nested record leaves its parent alone, so that the deletion finds the parent that the
  -- creation has found.
  cases h with
  | subsystem hfree _ _ _ _ _ hsubsystems hvhosts =>
    exact ⟨_, rfl, Simulation.deleteSubsystem_takes_back hfree hsubsystems hvhosts⟩
  | @controller c p listener row _ hreference hparent hlistener hrow hfree hsubsystems hvhosts =>
    have hfound : (inv.keep .controller place.name c).find? .subsystem
        c.spec.subsystemNameRef = some p := by
      rw [hreference]
      exact hparent
    have hnqn : listener.nqn = p.spec.nqn := Attach.Registry.nqn_of_listener hlistener
    rw [← hnqn] at hrow hsubsystems
    exact ⟨_, by simp [removal, hfound, hlistener, Except.toOption],
      Simulation.removeListener_takes_back hrow hfree hsubsystems hvhosts⟩
  | @nvmeNamespace n p row attached hreference hparent hrow hfree _ hnsid hsubsystems hvhosts =>
    have hfound : (inv.keep .nvmeNamespace place.name n).find? .subsystem
        n.spec.subsystemNameRef = some p := by
      rw [hreference]
      exact hparent
    rw [← hnsid] at hfree
    exact ⟨_, by simp [removal, hfound, ← hnsid],
      Simulation.removeNamespace_takes_back hrow hfree hsubsystems hvhosts⟩
  | virtioBlk hfree _ _ hsubsystems hvhosts | scsiController hfree _ _ hsubsystems hvhosts =>
    have hown : Name.ownId place.name = place.id := (World.place_eq rfl hplace hid).2
    rw [← hown] at hfree hvhosts
    exact ⟨_, rfl, Simulation.deleteVhost_takes_back hfree hsubsystems hvhosts⟩
  | @scsiLun l c row targets added hreference hparent hrow htargets hfree _ htarget hsubsystems
      hvhosts =>
    have hfound : (inv.keep .scsiLun place.name l).find? .scsiController place.parent = some c :=
      hparent
    rw [← htarget] at hfree
    exact ⟨_, by simp [removal, hreference, hfound, ← htarget],
      Simulation.removeTarget_takes_back hrow htargets hfree hsubsystems hvhosts⟩

/-- A record is dropped when the engine grants the call that removes its object. -/
theorem delete_of_granted (fresh : String) (request : DeleteRequest) {record : k.Record}
    {call : Call} {s₁ : Simulation} (hkept : inv.find? k request.name = some record)
    (hname : Check.required "name" request.name = .ok ())
    (hcall : removal registry inv request.name k record = some call)
    (hgranted : s.answer call = (.ok (.bool true), s₁)) :
    let course := (inv.perform registry fresh (.delete request : Operation k)).run
      Simulation.answer s
    course.result = .ok .deleted ∧ inv.after course.events = inv.drop k request.name ∧
      SameObjects s₁ course.engine := by
  intro course
  have hplays := plays_run Simulation.answer
    (inv.perform registry fresh (.delete request : Operation k)) s
  replace hplays : Procedure.Plays Simulation.answer s course.events course.engine := hplays
  obtain ⟨result, hdelete, hresult⟩ := goes_map_iff.1 (goes_run Simulation.answer
    (inv.perform registry fresh (.delete request : Operation k)) s)
  replace hresult : course.result = result.map fun _ => .deleted := hresult
  rcases goes_delete_of_kept hkept hdelete with ⟨why, hwhy, -⟩ | ⟨t, e, hgo, hevents, rfl⟩ |
    ⟨t, u, hgo, htidy, hevents, rfl⟩
  · rw [hname] at hwhy
    cases hwhy
  · -- The object is not removed only if the engine does not grant the call.
    replace hevents : course.events = t.map .asked := hevents
    rw [hevents] at hplays
    rcases goes_release hgo with ⟨hnone, -⟩ | ⟨call', answer, hcall', rfl, ⟨-, hr⟩ | ⟨hno, -⟩⟩
    · rw [hcall] at hnone
      cases hnone
    · cases hr
    · obtain rfl := Option.some.inj (hcall.symm.trans hcall')
      exact absurd (plays_asked hplays hgranted).1 hno
  · replace hevents : course.events = t.map .asked ++ .changed (.drop k request.name) ::
      u.map .asked := hevents
    rw [hevents] at hplays
    rcases goes_release hgo with ⟨hnone, -⟩ | ⟨call', answer, hcall', rfl, -⟩
    · rw [hcall] at hnone
      cases hnone
    · obtain rfl := Option.some.inj (hcall.symm.trans hcall')
      obtain ⟨-, htidied⟩ := plays_asked hplays hgranted
      refine ⟨hresult, ?_, sameObjects_of_plays (goes_tidy htidy).1 htidied⟩
      rw [hevents, Inventory.after_append, Inventory.after_map_asked, Inventory.after_changed,
        Inventory.after_map_asked]
      rfl

end

/-! ## Worlds -/

namespace World

/-- A creation that returns a record under a new name has made it in its place, together with its
object. -/
theorem made_of_create {registry : Attach.Registry} {w : World} {k : Kind} {parent id : String}
    {draft record : k.Record} {bits : Nat} (hplaced : w.inventory.All Placed)
    (hcreate : w.result registry ⟨k, .create parent draft id, bits⟩ = .ok (.record record))
    (hnew : w.inventory.find? k (Resource.name record) = none) :
    let w' := w.act registry (.take ⟨k, .create parent draft id, bits⟩)
    ∃ place, place = Place.under k place.parent place.id ∧ Whole '/' place.id ∧
      place.name = Resource.name record ∧
      w'.inventory = w.inventory.keep k (Resource.name record) record ∧
      Gain registry w.inventory place w.engine w'.engine k record := by
  intro w'
  let creation := w.inventory.perform registry (Uuid.text bits) (.create parent draft id)
  obtain ⟨result, hgo, hresult⟩ := goes_map_iff.1 (goes_run Simulation.answer creation w.engine)
  have hplays := plays_run Simulation.answer creation w.engine
  obtain rfl : result = .ok record := by
    have hsame : Except.ok (Reply.record record) = result.map Reply.record :=
      hcreate.symm.trans hresult
    cases result with
    | error e => cases hsame
    | ok made =>
      cases hsame
      rfl
  rcases goes_create hgo with ⟨-, ⟨_, -, hr⟩ | ⟨place, kept, -, hkept, hr⟩⟩ |
    ⟨place, t, hplace, -, hmake, hevents⟩
  · cases hr
  · -- A record that is kept already is kept under its name.
    obtain rfl := Except.ok.inj hr
    rw [(hplaced k place.name record hkept).key, hkept] at hnew
    cases hnew
  rcases goes_make hmake with ⟨made, hr, hmade⟩ | ⟨e, hr, -⟩
  · obtain rfl := Except.ok.inj hr
    have hdraft : (Operation.create parent draft id).draft? registry (Uuid.text bits) =
        some (place, draft) := by
      simp [Operation.draft?, hplace, Except.toOption]
    obtain ⟨hunder, hid, -⟩ := Operation.placed_of_draft? hdraft
    rw [hevents, plays_append] at hplays
    obtain ⟨s₁, hplays, hengine⟩ := hplays
    refine ⟨place, hunder, Check.whole_of_isId hid, hmade.name_eq.symm, ?_, ?_⟩
    · show w.inventory.after (creation.run Simulation.answer w.engine).events = _
      rw [hevents, Inventory.after_append, Inventory.after_map_asked, hmade.name_eq]
      rfl
    · show Gain registry w.inventory place w.engine (creation.run Simulation.answer w.engine).engine
        k record
      rw [hengine]
      exact gain_of_made hmade hplays
  · cases hr

/-- After any actions, a record that has just been made under a new name can be deleted, and then
the same records are kept under the same names, the same page tokens are there, and the engine holds
the same subsystems, with their listeners, hosts and namespaces, and the same vhost controllers, with
their targets, as before the record was made. -/
theorem delete_restores_after (registry : Attach.Registry) (actions : List Action) {k : Kind}
    (parent : String) (draft : k.Record) (id : String) (bits bits' : Nat) (allowMissing : Bool)
    {record : k.Record}
    (hcreate : (after registry actions).result registry ⟨k, .create parent draft id, bits⟩ =
      .ok (.record record))
    (hnew : (after registry actions).inventory.find? k (Resource.name record) = none) :
    let w := after registry actions
    let w' := w.act registry (.take ⟨k, .create parent draft id, bits⟩)
    let deletion : Step := ⟨k, .delete ⟨Resource.name record, allowMissing⟩, bits'⟩
    let w'' := w'.act registry (.take deletion)
    w'.result registry deletion = .ok .deleted ∧ w''.inventory = w.inventory ∧
      SameObjects w.engine w''.engine := by
  intro w w' deletion w''
  obtain ⟨place, hplace, hid, hname, hinventory, hgain⟩ :=
    made_of_create (placed_after registry actions) hcreate hnew
  replace hinventory : w'.inventory = w.inventory.keep k (Resource.name record) record := hinventory
  obtain ⟨call, hcall, s₁, hgranted, hrestored⟩ := hgain.undone hplace hid
  rw [hname, ← hinventory] at hcall
  have hkept : w'.inventory.find? k (Resource.name record) = some record := by
    rw [hinventory, Inventory.find?_keep_self]
  have hrequired : Check.required "name" (Resource.name record) = .ok () := by
    rw [← hname, hplace]
    exact Check.required_compose _ _ _ _
  obtain ⟨hdeleted, hdropped, hobjects⟩ := delete_of_granted (Uuid.text bits')
    ⟨Resource.name record, allowMissing⟩ hkept hrequired hcall hgranted
  refine ⟨hdeleted, ?_, hrestored.trans hobjects⟩
  refine Eq.trans hdropped ?_
  show w'.inventory.drop k (Resource.name record) = w.inventory
  rw [hinventory]
  exact Inventory.drop_keep hnew record

/-- A namespace that is attached to a new subsystem and detached again leaves no trace. -/
theorem delete_restores_after_attaching :
    let subsystem : Subsystem := { spec := { nqn := "nqn.2022-09.io.spdk:one" } }
    let w := after {} [.take ⟨.subsystem, .create "" subsystem "s1", 0⟩]
    let w' := w.act {} (.take ⟨.nvmeNamespace,
      .create "//storage.bridge.dev/subsystems/s1" { spec := { volumeNameRef := "Malloc0" } } "a", 0⟩)
    let w'' := w'.act {} (.take ⟨.nvmeNamespace,
      .delete { name := "//storage.bridge.dev/subsystems/s1/namespaces/a" }, 0⟩)
    w''.inventory = w.inventory ∧ SameObjects w.engine w''.engine := by
  intro subsystem w w' w''
  let made : NvmeNamespace :=
    { name := "//storage.bridge.dev/subsystems/s1/namespaces/a"
      spec :=
        { subsystemNameRef := "//storage.bridge.dev/subsystems/s1"
          hostNsid := 1
          volumeNameRef := "Malloc0" }
      status := some ⟨.enabled⟩ }
  have hcreate : w.result {} ⟨.nvmeNamespace, .create "//storage.bridge.dev/subsystems/s1"
      { spec := { volumeNameRef := "Malloc0" } } "a", 0⟩ = .ok (.record made) := by
    decide +kernel
  exact (delete_restores_after {} [.take ⟨.subsystem, .create "" subsystem "s1", 0⟩] _ _ _ 0 0 false
    hcreate (by decide +kernel)).2

end World

end StorageControl
