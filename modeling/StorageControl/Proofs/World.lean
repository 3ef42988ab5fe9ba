/-
# How a world changes

Every action changes a world in one of a few ways: not at all as far as records and objects go, by a
revised record, by a record and its object that come together, or by a record and its object that go
together. A number that no record can bear may stay behind in the engine.
-/
import Mathlib.Data.List.Induction
import StorageControl.Inventory.World
import StorageControl.Proofs.Attach
import StorageControl.Proofs.Operation
import StorageControl.Proofs.Simulation

namespace StorageControl

open Engine (Answer Call Simulation)
open Engine.Simulation (SameObjects)
open Text (Whole)

/-! ## What the engine gains and loses -/

/-- The row is that of a subsystem: it lets in the subsystem's host, or every host if the subsystem
has none. -/
structure FitsSubsystem (spec : SubsystemSpec) (row : Engine.SubsystemRow) : Prop where
  allowAnyHost : row.allowAnyHost = spec.hostnqn.isNone
  hosts : row.hosts = (spec.hostnqn.map Simulation.hostEntry).toList

/-- What the engine gains with a record that is made at a place. -/
inductive Gain (registry : Attach.Registry) (inv : Inventory) (place : Place) (s s' : Simulation) :
    (k : Kind) → k.Record → Prop
  | subsystem {r : Subsystem} {row : Engine.SubsystemRow}
      (hfree : s.subsystems.find? r.spec.nqn = none) (hfits : FitsSubsystem r.spec row)
      (hnqn : row.nqn = r.spec.nqn) (hserves : row.isDiscovery = false)
      (hnoListener : row.listenAddresses = []) (hnoNamespace : row.namespaces = [])
      (hsubsystems : s'.subsystems = s.subsystems.insert r.spec.nqn row)
      (hvhosts : s'.vhosts = s.vhosts) : Gain registry inv place s s' .subsystem r
  | controller {c : Controller} {p : Subsystem} {listener : Engine.Listener}
      {row : Engine.SubsystemRow} (hname : c.name = place.name)
      (hreference : c.spec.subsystemNameRef = place.parent)
      (hparent : inv.find? .subsystem place.parent = some p)
      (hlistener : registry.listener c p = .ok listener)
      (hrow : s.subsystems.find? p.spec.nqn = some row)
      (hfree : row.listenAddresses.any (·.sameEndpoint listener.listenAddress) = false)
      (hsubsystems : s'.subsystems = s.subsystems.insert p.spec.nqn
        { row with listenAddresses := row.listenAddresses ++ [listener.listenAddress] })
      (hvhosts : s'.vhosts = s.vhosts) : Gain registry inv place s s' .controller c
  | nvmeNamespace {n : NvmeNamespace} {p : Subsystem} {row : Engine.SubsystemRow}
      {attached : Engine.NamespaceRow} (hreference : n.spec.subsystemNameRef = place.parent)
      (hparent : inv.find? .subsystem place.parent = some p)
      (hrow : s.subsystems.find? p.spec.nqn = some row)
      (hfree : row.namespaces.any (·.nsid == n.spec.hostNsid) = false)
      (hpos : 0 < n.spec.hostNsid) (hnsid : attached.nsid = n.spec.hostNsid)
      (hsubsystems : s'.subsystems = s.subsystems.insert p.spec.nqn
        { row with namespaces := row.namespaces ++ [attached] })
      (hvhosts : s'.vhosts = s.vhosts) : Gain registry inv place s s' .nvmeNamespace n
  | virtioBlk {d : VirtioBlk} {row : Engine.VhostRow} (hfree : s.vhosts.find? place.id = none)
      (hctrlr : row.ctrlr = place.id)
      (hbackend : row.backend = { block := some { bdev := d.volumeNameRef } })
      (hsubsystems : s'.subsystems = s.subsystems)
      (hvhosts : s'.vhosts = s.vhosts.insert place.id row) :
      Gain registry inv place s s' .virtioBlk d
  | scsiController {c : ScsiController} {row : Engine.VhostRow}
      (hfree : s.vhosts.find? place.id = none) (hctrlr : row.ctrlr = place.id)
      (hbackend : row.backend = { scsi := some [] })
      (hsubsystems : s'.subsystems = s.subsystems)
      (hvhosts : s'.vhosts = s.vhosts.insert place.id row) :
      Gain registry inv place s s' .scsiController c
  | scsiLun {l : ScsiLun} {c : ScsiController} {row : Engine.VhostRow}
      {targets : List Engine.TargetRow} {added : Engine.TargetRow}
      (hreference : l.controllerNameRef = place.parent)
      (hparent : inv.find? .scsiController place.parent = some c)
      (hrow : s.vhosts.find? (Name.ownId place.parent) = some row)
      (htargets : row.backend.scsi = some targets)
      (hfree : Simulation.usesTarget targets l.targetNum = false) (hnonneg : 0 ≤ l.targetNum)
      (htarget : added.scsiDevNum = l.targetNum) (hsubsystems : s'.subsystems = s.subsystems)
      (hvhosts : s'.vhosts = s.vhosts.insert (Name.ownId place.parent)
        { row with backend := { row.backend with scsi := some (targets ++ [added]) } }) :
      Gain registry inv place s s' .scsiLun l

/-- What the engine loses with a record that is dropped from a name. -/
inductive Loss (registry : Attach.Registry) (inv : Inventory) (name : String) (s s' : Simulation) :
    (k : Kind) → k.Record → Prop
  | subsystem {r : Subsystem} (hsubsystems : s'.subsystems = s.subsystems.erase r.spec.nqn)
      (hvhosts : s'.vhosts = s.vhosts) : Loss registry inv name s s' .subsystem r
  | controller {c : Controller} {p : Subsystem} {listener : Engine.Listener}
      {row : Engine.SubsystemRow} (hparent : inv.find? .subsystem c.spec.subsystemNameRef = some p)
      (hlistener : registry.listener c p = .ok listener)
      (hrow : s.subsystems.find? p.spec.nqn = some row)
      (hused : row.listenAddresses.any (·.sameEndpoint listener.listenAddress) = true)
      (hsubsystems : s'.subsystems = s.subsystems.insert p.spec.nqn
        { row with
          listenAddresses :=
            row.listenAddresses.filter fun l => !l.sameEndpoint listener.listenAddress })
      (hvhosts : s'.vhosts = s.vhosts) : Loss registry inv name s s' .controller c
  | nvmeNamespace {n : NvmeNamespace} {p : Subsystem} {row : Engine.SubsystemRow}
      (hparent : inv.find? .subsystem n.spec.subsystemNameRef = some p)
      (hrow : s.subsystems.find? p.spec.nqn = some row)
      (hused : row.namespaces.any (·.nsid == n.spec.hostNsid) = true)
      (hsubsystems : s'.subsystems = s.subsystems.insert p.spec.nqn
        { row with namespaces := row.namespaces.filter fun r => r.nsid != n.spec.hostNsid })
      (hvhosts : s'.vhosts = s.vhosts) : Loss registry inv name s s' .nvmeNamespace n
  | virtioBlk {d : VirtioBlk} (hsubsystems : s'.subsystems = s.subsystems)
      (hvhosts : s'.vhosts = s.vhosts.erase (Name.ownId name)) :
      Loss registry inv name s s' .virtioBlk d
  | scsiController {c : ScsiController} (hsubsystems : s'.subsystems = s.subsystems)
      (hvhosts : s'.vhosts = s.vhosts.erase (Name.ownId name)) :
      Loss registry inv name s s' .scsiController c
  | scsiLun {l : ScsiLun} {c : ScsiController} {row : Engine.VhostRow}
      {targets : List Engine.TargetRow}
      (hparent : inv.find? .scsiController l.controllerNameRef = some c)
      (hrow : s.vhosts.find? (Name.ownId l.controllerNameRef) = some row)
      (htargets : row.backend.scsi = some targets)
      (hused : Simulation.usesTarget targets l.targetNum = true)
      (hsubsystems : s'.subsystems = s.subsystems)
      (hvhosts : s'.vhosts = s.vhosts.insert (Name.ownId l.controllerNameRef)
        { row with
          backend :=
            { row.backend with
              scsi := some (targets.filter fun t => t.scsiDevNum != l.targetNum) } }) :
      Loss registry inv name s s' .scsiLun l

/-- A number that no record can bear stays behind in the engine. -/
inductive Litter (s s' : Simulation) : Prop
  | nvmeNamespace {nqn : String} {row : Engine.SubsystemRow} {attached : Engine.NamespaceRow}
      (hrow : s.subsystems.find? nqn = some row)
      (hfree : row.namespaces.any (·.nsid == attached.nsid) = false)
      (hnonpos : ¬ 0 < attached.nsid)
      (hsubsystems : s'.subsystems = s.subsystems.insert nqn
        { row with namespaces := row.namespaces ++ [attached] })
      (hvhosts : s'.vhosts = s.vhosts)
  | scsiLun {id : String} {row : Engine.VhostRow} {targets : List Engine.TargetRow}
      {added : Engine.TargetRow} (hrow : s.vhosts.find? id = some row)
      (htargets : row.backend.scsi = some targets)
      (hfree : Simulation.usesTarget targets added.scsiDevNum = false)
      (hneg : ¬ 0 ≤ added.scsiDevNum) (hsubsystems : s'.subsystems = s.subsystems)
      (hvhosts : s'.vhosts = s.vhosts.insert id
        { row with backend := { row.backend with scsi := some (targets ++ [added]) } })

/-! ## Changes of a world -/

/-- How a world can change. -/
inductive Shift (registry : Attach.Registry) (w w' : World) : Prop
  /-- No record and no object changes. -/
  | same (htables : ∀ k, w'.inventory.table k = w.inventory.table k)
      (hobjects : SameObjects w.engine w'.engine)
  /-- No record changes, and a number stays behind. -/
  | littered (hinventory : w'.inventory = w.inventory) (hlitter : Litter w.engine w'.engine)
  /-- A record is revised. -/
  | revised {k : Kind} {name : String} {kept revised : k.Record} {request : UpdateRequest k.Record}
      (hsupported : (k.family registry).updateUnsupported = none)
      (hkept : w.inventory.find? k name = some kept)
      (hrevise : Inventory.revise kept request = .ok revised)
      (hinventory : w'.inventory = w.inventory.keep k name revised)
      (hobjects : SameObjects w.engine w'.engine)
  /-- A record is made. -/
  | made {k : Kind} {place : Place} {record : k.Record}
      (hplace : place = Place.under k place.parent place.id) (hid : Whole '/' place.id)
      (hnew : w.inventory.find? k place.name = none)
      (hinventory : w'.inventory = w.inventory.keep k place.name record)
      (hgain : Gain registry w.inventory place w.engine w'.engine k record)
  /-- A record is dropped. -/
  | dropped {k : Kind} {name : String} {record : k.Record}
      (hkept : w.inventory.find? k name = some record)
      (hinventory : w'.inventory = w.inventory.drop k name)
      (hloss : Loss registry w.inventory name w.engine w'.engine k record)

/-! ## Making -/

open Procedure (Plays plays_append)

variable {registry : Attach.Registry} {inv : Inventory} {place : Place} {k : Kind}
  {s s' : Simulation}

theorem sameObjects_of_plays {t : List Exchange} (ht : KeepsObjects t)
    (h : Plays Simulation.answer s (t.map .asked) s') : SameObjects s s' := by
  refine Procedure.rel_of_plays .refl .trans (fun x hx s => ?_) h
  obtain ⟨y, hy, ⟨⟩⟩ := List.mem_map.1 hx
  exact Simulation.sameObjects_answer (ht _ hy) s

/-- When the engine plays an exchange, the answer is the engine's. -/
theorem plays_asked {x : Exchange} {rest : List Event} {answer : Answer} {s₁ : Simulation}
    (h : Plays Simulation.answer s (.asked x :: rest) s')
    (hx : s.answer x.request = (answer, s₁)) :
    x.answer = answer ∧ Plays Simulation.answer s₁ rest s' := by
  obtain ⟨hanswer, hrest⟩ := h
  rw [hx] at hanswer hrest
  exact ⟨hanswer.symm, hrest⟩

/-- When the host of a subsystem has been let in, it is the last one in the row. -/
theorem hosts_of_hosting {spec : SubsystemSpec} {s₁ : Simulation} {row : Engine.SubsystemRow}
    (hrow : s.subsystems.find? spec.nqn = some row)
    (h : Plays Simulation.answer s ((Subsystems.hosting spec).map .asked) s₁) :
    s₁.subsystems = s.subsystems.insert spec.nqn
        { row with hosts := row.hosts ++ (spec.hostnqn.map Simulation.hostEntry).toList } ∧
      s₁.vhosts = s.vhosts := by
  cases hhost : spec.hostnqn with
  | none =>
    rw [Subsystems.hosting, hhost] at h
    cases h
    refine ⟨?_, rfl⟩
    rw [Option.map_none, Option.toList_none, List.append_nil]
    exact (Table.insert_eq_self hrow).symm
  | some host =>
    rw [Subsystems.hosting, hhost] at h
    rcases s.answer_addHost { nqn := spec.nqn, host, psk := spec.psk } with
      ⟨found, hfound, hadd⟩ | ⟨e, hmissing, -⟩
    · cases hrow.symm.trans hfound
      obtain ⟨-, rfl⟩ := plays_asked h hadd
      exact ⟨rfl, rfl⟩
    · cases hrow.symm.trans hmissing

/-- The number that an answer is read as. -/
theorem read?_int32 (n : Int32) : Answer.read? .int32 (.ok (.ofInt n.toInt)) = some n :=
  Codec.int32_lawful n

/-- A record that is made comes with its object. -/
theorem gain_of_made {draft made : k.Record} {t : List Exchange}
    (h : Made registry inv place k draft made t)
    (hplays : Plays Simulation.answer s (t.map .asked) s') :
    Gain registry inv place s s' k made := by
  -- In each case the engine either grants the call, and the record tells with which numbers, or it
  -- does not, and then it has not answered what the record was made with.
  cases h with
  | @subsystem r answer version hversion =>
    rcases s.answer_createSubsystem (Subsystems.creation r.spec) with ⟨hfree, h⟩ | ⟨e, h⟩
    · obtain ⟨-, hrest⟩ := plays_asked hplays h
      rw [List.append_eq, List.map_append, plays_append] at hrest
      obtain ⟨s₁, hhosting, -, hend⟩ := hrest
      obtain ⟨hsubsystems, hvhosts⟩ := hosts_of_hosting (Table.find?_insert_self _ _ _) hhosting
      have hengine : s' = s₁ := hend.trans (congrArg Prod.snd s₁.answer_getVersion)
      have hserves := Simulation.isDiscovery_newRow (Subsystems.creation r.spec)
      have hinserted : s₁.subsystems = s.subsystems.insert r.spec.nqn _ :=
        hsubsystems.trans (Table.insert_insert _ _ _ _)
      rw [hengine]
      refine .subsystem hfree ?_ ?_ ?_ ?_ ?_ hinserted hvhosts
      · exact ⟨rfl, rfl⟩
      · rfl
      · exact hserves
      · rfl
      · rfl
    · cases (plays_asked hplays h).1
  | @controller c p listener hparent hlistener =>
    rcases s.answer_addListener listener with ⟨row, hrow, hfree, h⟩ | ⟨e, h⟩
    · obtain ⟨-, rfl⟩ := plays_asked hplays h
      have hnqn : listener.nqn = p.spec.nqn := Attach.Registry.nqn_of_listener hlistener
      rw [hnqn] at hrow ⊢
      exact .controller rfl rfl hparent hlistener hrow hfree rfl rfl
    · cases (plays_asked hplays h).1
  | @nvmeNamespace n p answer nsid hparent hnsid hpos =>
    rcases s.answer_addNamespace (Namespaces.attachment p.spec.nqn n.spec) with
      ⟨row, nsid', hrow, hfree, h⟩ | ⟨e, h⟩
    · obtain ⟨rfl, rfl⟩ := plays_asked hplays h
      rw [read?_int32] at hnsid
      cases hnsid
      exact .nvmeNamespace rfl hparent hrow hfree hpos rfl rfl rfl
    · obtain ⟨rfl, -⟩ := plays_asked hplays h
      cases hnsid
  | @virtioBlk d params before hparams hbefore =>
    rw [List.map_append, plays_append] at hplays
    obtain ⟨s₁, hlimits, hattach⟩ := hplays
    obtain ⟨hsubsystems, hvhosts⟩ := sameObjects_of_plays hbefore hlimits
    obtain ⟨hid, hvolume⟩ := Attach.eq_of_blkController hparams
    rcases s₁.answer_createBlkController params with ⟨hfree, h⟩ | ⟨e, -, h⟩
    · obtain ⟨-, rfl⟩ := plays_asked hattach h
      rw [hid, hvhosts] at hfree
      rw [hid, hvolume, hvhosts]
      exact .virtioBlk hfree rfl rfl hsubsystems rfl
    · cases (plays_asked hattach h).1
  | @scsiController c params hparams =>
    have hid := Attach.eq_of_scsiController hparams
    rcases s.answer_createScsiController params with ⟨hfree, h⟩ | ⟨e, h⟩
    · obtain ⟨-, rfl⟩ := plays_asked hplays h
      rw [hid] at hfree ⊢
      exact .scsiController hfree rfl rfl rfl rfl
    · cases (plays_asked hplays h).1
  | @scsiLun l c answer target hparent htarget hnonneg =>
    rcases s.answer_addTarget ⟨Name.ownId place.parent, l.targetNum, l.volumeNameRef⟩ with
      ⟨row, targets, n, hrow, htargets, hfree, h⟩ | ⟨e, h⟩
    · obtain ⟨rfl, rfl⟩ := plays_asked hplays h
      rw [read?_int32] at htarget
      cases htarget
      exact .scsiLun rfl hparent hrow htargets hfree hnonneg rfl rfl rfl
    · obtain ⟨rfl, -⟩ := plays_asked hplays h
      cases htarget

theorem Litter.congr {s₁ s₂ : Simulation} (h : Litter s₁ s₂) (hbefore : SameObjects s s₁)
    (hafter : SameObjects s₂ s') : Litter s s' := by
  obtain ⟨hsubsystems₁, hvhosts₁⟩ := hbefore
  obtain ⟨hsubsystems₂, hvhosts₂⟩ := hafter
  cases h with
  | nvmeNamespace hrow hfree hnonpos hsubsystems hvhosts =>
    rw [hsubsystems₁] at hrow hsubsystems
    exact .nvmeNamespace hrow hfree hnonpos (hsubsystems₂.trans hsubsystems)
      (hvhosts₂.trans (hvhosts.trans hvhosts₁))
  | scsiLun hrow htargets hfree hneg hsubsystems hvhosts =>
    rw [hvhosts₁] at hrow hvhosts
    exact .scsiLun hrow htargets hfree hneg (hsubsystems₂.trans (hsubsystems.trans hsubsystems₁))
      (hvhosts₂.trans hvhosts)

/-- A call that is granted or changes nothing changes nothing if the answer is not true. -/
theorem eq_of_not_granted {call : Call} {answer : Answer}
    (hcall : (∃ s₁, s.answer call = (.ok (.bool true), s₁)) ∨
      ∃ answer, s.answer call = (answer, s))
    (hanswer : answer ≠ .ok (.bool true)) (hplays : s.answer call = (answer, s')) : s' = s := by
  rcases hcall with ⟨s₁, h⟩ | ⟨answer', h⟩
  · cases hplays.symm.trans h
    exact absurd rfl hanswer
  · cases hplays.symm.trans h
    rfl

/-- A creation that is not affirmed has no effect, unless a number stays behind. -/
theorem same_or_litter_of_refused {draft : k.Record} {call : Call} {answer : Answer}
    (hcall : creation registry inv place k draft = some call)
    (hanswer : answer.affirms k = false) (hplays : s.answer call = (answer, s')) :
    SameObjects s s' ∨ Litter s s' := by
  have hne (h : answer.isTrue = false) : answer ≠ .ok (.bool true) := by
    rw [Bool.eq_false_iff, Ne, Answer.isTrue_iff] at h
    exact h
  -- Only the two calls that are answered with a number can leave something behind.
  cases k with
  | subsystem =>
    cases hcall
    have hcases := s.answer_createSubsystem (Subsystems.creation draft.spec)
    cases eq_of_not_granted (hcases.imp (fun h => ⟨_, h.2⟩) fun ⟨_, h⟩ => ⟨_, h⟩) (hne hanswer)
      hplays
    exact .inl (.refl _)
  | controller =>
    obtain ⟨p, -, hcall⟩ := Option.bind_eq_some_iff.1 hcall
    obtain ⟨listener, -, ⟨⟩⟩ := Option.bind_eq_some_iff.1 hcall
    have hcases := s.answer_addListener listener
    cases eq_of_not_granted (hcases.imp (fun ⟨_, _, _, h⟩ => ⟨_, h⟩) fun ⟨_, h⟩ => ⟨_, h⟩)
      (hne hanswer) hplays
    exact .inl (.refl _)
  | nvmeNamespace =>
    obtain ⟨p, -, ⟨⟩⟩ := Option.bind_eq_some_iff.1 hcall
    rcases s.answer_addNamespace (Namespaces.attachment p.spec.nqn draft.spec) with
      ⟨row, nsid, hrow, hfree, h⟩ | ⟨e, h⟩
    · cases hplays.symm.trans h
      rw [Answer.affirms, read?_int32, Option.any_some, decide_eq_false_iff_not] at hanswer
      exact .inr (.nvmeNamespace hrow hfree hanswer rfl rfl)
    · cases hplays.symm.trans h
      exact .inl (.refl _)
  | virtioBlk =>
    obtain ⟨params, -, ⟨⟩⟩ := Option.bind_eq_some_iff.1 hcall
    have hcases := s.answer_createBlkController params
    cases eq_of_not_granted (hcases.imp (fun h => ⟨_, h.2⟩) fun ⟨_, _, h⟩ => ⟨_, h⟩) (hne hanswer)
      hplays
    exact .inl (.refl _)
  | scsiController =>
    obtain ⟨params, -, ⟨⟩⟩ := Option.bind_eq_some_iff.1 hcall
    have hcases := s.answer_createScsiController params
    cases eq_of_not_granted (hcases.imp (fun h => ⟨_, h.2⟩) fun ⟨_, h⟩ => ⟨_, h⟩) (hne hanswer)
      hplays
    exact .inl (.refl _)
  | scsiLun =>
    obtain ⟨c, -, ⟨⟩⟩ := Option.bind_eq_some_iff.1 hcall
    rcases s.answer_addTarget ⟨Name.ownId place.parent, draft.targetNum, draft.volumeNameRef⟩ with
      ⟨row, targets, n, hrow, htargets, hfree, h⟩ | ⟨e, h⟩
    · cases hplays.symm.trans h
      rw [Answer.affirms, read?_int32, Option.any_some, decide_eq_false_iff_not] at hanswer
      exact .inr (.scsiLun hrow htargets hfree hanswer rfl rfl)
    · cases hplays.symm.trans h
      exact .inl (.refl _)

/-- A record that is not made leaves no object, unless a number stays behind. A simulated engine
never refuses to finish a subsystem that it has made. -/
theorem same_or_litter_of_unmade {draft : k.Record} {t : List Exchange}
    (h : Unmade registry inv place k draft t)
    (hplays : Plays Simulation.answer s (t.map .asked) s') :
    SameObjects s s' ∨ Litter s s' := by
  cases h with
  | unasked ht => exact .inl (sameObjects_of_plays ht hplays)
  | @refused _ _ call answer before after hcall hanswer hbefore hafter =>
    rw [List.map_append, plays_append] at hplays
    obtain ⟨s₁, hfirst, hasked, hlast⟩ := hplays
    have hsame₁ := sameObjects_of_plays hbefore hfirst
    have hsame₂ := sameObjects_of_plays hafter hlast
    have hcalled : s₁.answer call = (answer, (s₁.answer call).2) := Prod.ext hasked rfl
    rcases same_or_litter_of_refused hcall hanswer hcalled with hsame | hlitter
    · exact .inl (hsame₁.trans (hsame.trans hsame₂))
    · exact .inr (hlitter.congr hsame₁ hsame₂)
  | @hostless r host answer undone hhost hanswer =>
    rcases s.answer_createSubsystem (Subsystems.creation r.spec) with ⟨hfree, h⟩ | ⟨e, h⟩
    · obtain ⟨-, hrest⟩ := plays_asked hplays h
      rcases (s.withSubsystem r.spec.nqn
        (Simulation.newRow (Subsystems.creation r.spec))).answer_addHost
          { nqn := r.spec.nqn, host, psk := r.spec.psk } with ⟨row, -, hadd⟩ | ⟨e, hmissing, -⟩
      · exact absurd (plays_asked hrest hadd).1 hanswer
      · -- The engine cannot miss the subsystem that it has just made.
        have hthere := Table.find?_insert_self s.subsystems r.spec.nqn
          (Simulation.newRow (Subsystems.creation r.spec))
        rw [Simulation.withSubsystem, hthere] at hmissing
        cases hmissing
    · cases (plays_asked hplays h).1
  | @versionless r answer undone hanswer =>
    obtain ⟨-, hrest⟩ := hplays
    rw [List.append_eq, List.map_append, plays_append] at hrest
    obtain ⟨s₁, -, hversion⟩ := hrest
    obtain ⟨rfl, -⟩ := plays_asked hversion s₁.answer_getVersion
    -- The simulated engine tells a version that can be read.
    have hread : Answer.read? Engine.Version.codec
        (.ok (Engine.Version.codec.encode Simulation.version)) = some Simulation.version :=
      (Engine.Version.codec_sound 0).lawful _
    rw [hread] at hanswer
    cases hanswer

/-! ## Removing -/

/-- A record whose object the engine removes is dropped with it. -/
theorem loss_of_removal {s₁ : Simulation} {name : String} {record : k.Record} {call : Call}
    (hcall : removal registry inv name k record = some call)
    (hplays : s.answer call = (.ok (.bool true), s₁)) (hafter : SameObjects s₁ s') :
    Loss registry inv name s s' k record := by
  cases k with
  | subsystem =>
    cases hcall
    rcases s.answer_deleteSubsystem record.spec.nqn with ⟨row, -, h⟩ | ⟨e, -, h⟩
    · cases hplays.symm.trans h
      exact .subsystem hafter.1 hafter.2
    · cases hplays.symm.trans h
  | controller =>
    obtain ⟨p, hparent, hcall⟩ := Option.bind_eq_some_iff.1 hcall
    obtain ⟨listener, hlistener, ⟨⟩⟩ := Option.bind_eq_some_iff.1 hcall
    rw [Check.toOption_eq_some_iff] at hlistener
    rcases s.answer_removeListener listener with ⟨row, hrow, hused, h⟩ | ⟨e, h⟩
    · cases hplays.symm.trans h
      have hnqn : listener.nqn = p.spec.nqn := Attach.Registry.nqn_of_listener hlistener
      rw [hnqn] at hrow hafter
      exact .controller hparent hlistener hrow hused hafter.1 hafter.2
    · cases hplays.symm.trans h
  | nvmeNamespace =>
    obtain ⟨p, hparent, ⟨⟩⟩ := Option.bind_eq_some_iff.1 hcall
    rcases s.answer_removeNamespace ⟨p.spec.nqn, record.spec.hostNsid⟩ with
      ⟨row, hrow, hused, h⟩ | ⟨answer, hno, h⟩
    · cases hplays.symm.trans h
      exact .nvmeNamespace hparent hrow hused hafter.1 hafter.2
    · cases hplays.symm.trans h
      exact absurd rfl hno
  | virtioBlk =>
    cases hcall
    rcases s.answer_deleteVhost (Attach.vhostRef (Name.ownId name)) with ⟨row, -, h⟩ | ⟨e, -, h⟩
    · cases hplays.symm.trans h
      exact .virtioBlk hafter.1 hafter.2
    · cases hplays.symm.trans h
  | scsiController =>
    cases hcall
    rcases s.answer_deleteVhost (Attach.vhostRef (Name.ownId name)) with ⟨row, -, h⟩ | ⟨e, -, h⟩
    · cases hplays.symm.trans h
      exact .scsiController hafter.1 hafter.2
    · cases hplays.symm.trans h
  | scsiLun =>
    obtain ⟨c, hparent, ⟨⟩⟩ := Option.bind_eq_some_iff.1 hcall
    rcases s.answer_removeTarget ⟨Name.ownId record.controllerNameRef, record.targetNum⟩ with
      ⟨row, targets, hrow, htargets, hused, h⟩ | ⟨answer, hno, h⟩
    · cases hplays.symm.trans h
      exact .scsiLun hparent hrow htargets hused hafter.1 hafter.2
    · cases hplays.symm.trans h
      exact absurd rfl hno

/-- A removal that is not granted has no effect. -/
theorem eq_of_held {name : String} {record : k.Record} {call : Call} {answer : Answer}
    (hcall : removal registry inv name k record = some call)
    (hanswer : answer ≠ .ok (.bool true)) (hplays : s.answer call = (answer, s')) : s' = s := by
  refine eq_of_not_granted ?_ hanswer hplays
  cases k with
  | subsystem =>
    cases hcall
    have hcases := s.answer_deleteSubsystem record.spec.nqn
    exact hcases.imp (fun ⟨_, _, h⟩ => ⟨_, h⟩) fun ⟨_, _, h⟩ => ⟨_, h⟩
  | controller =>
    obtain ⟨p, -, hcall⟩ := Option.bind_eq_some_iff.1 hcall
    obtain ⟨listener, -, ⟨⟩⟩ := Option.bind_eq_some_iff.1 hcall
    have hcases := s.answer_removeListener listener
    exact hcases.imp (fun ⟨_, _, _, h⟩ => ⟨_, h⟩) fun ⟨_, h⟩ => ⟨_, h⟩
  | nvmeNamespace =>
    obtain ⟨p, -, ⟨⟩⟩ := Option.bind_eq_some_iff.1 hcall
    have hcases := s.answer_removeNamespace ⟨p.spec.nqn, record.spec.hostNsid⟩
    exact hcases.imp (fun ⟨_, _, _, h⟩ => ⟨_, h⟩) fun ⟨_, _, h⟩ => ⟨_, h⟩
  | virtioBlk | scsiController =>
    cases hcall
    have hcases := s.answer_deleteVhost (Attach.vhostRef (Name.ownId name))
    exact hcases.imp (fun ⟨_, _, h⟩ => ⟨_, h⟩) fun ⟨_, _, h⟩ => ⟨_, h⟩
  | scsiLun =>
    obtain ⟨c, -, ⟨⟩⟩ := Option.bind_eq_some_iff.1 hcall
    have hcases := s.answer_removeTarget ⟨Name.ownId record.controllerNameRef, record.targetNum⟩
    exact hcases.imp (fun ⟨_, _, _, _, _, h⟩ => ⟨_, h⟩) fun ⟨_, _, h⟩ => ⟨_, h⟩

/-! ## Actions -/

namespace World

theorem after_concat (registry : Attach.Registry) (actions : List Action) (a : Action) :
    after registry (actions ++ [a]) = (after registry actions).act registry a := by
  rw [after, List.foldl_append, ← after]
  rfl

/-- What holds in the beginning and is preserved by every action holds after any actions. -/
theorem invariant {P : World → Prop} {registry : Attach.Registry} (hstart : P {})
    (hact : ∀ w a, P w → P (w.act registry a)) (actions : List Action) :
    P (after registry actions) := by
  induction actions using List.reverseRecOn with
  | nil => exact hstart
  | append_singleton actions a ih =>
    rw [after_concat]
    exact hact _ a ih

/-- What every turn preserves of what is kept holds after any actions, if it holds of nothing. -/
theorem inventory_invariant {P : Inventory → Prop} {registry : Attach.Registry} (hstart : P .empty)
    (hturn : ∀ {inv : Inventory} {step : Step} {events : List Event}
      {r : Except Fault (Reply step.kind)}, P inv →
        Turn registry step.fresh inv step.operation events r → P (inv.after events))
    (actions : List Action) : P (after registry actions).inventory := by
  refine invariant (P := fun w => P w.inventory) hstart (fun w a hw => ?_) actions
  cases a with
  | version | put => exact hw
  | take step => exact hturn hw (turn_of_goes (Procedure.goes_run Simulation.answer _ w.engine))

/-- Every action changes a world in one of the ways above. -/
theorem shift (registry : Attach.Registry) (w : World) (a : Action) :
    Shift registry w (w.act registry a) := by
  cases a with
  | version => exact .same (fun _ => rfl) (.refl _)
  | put volume => exact .same (fun _ => rfl) ⟨rfl, rfl⟩
  | take step =>
    -- The turn says which events there are, and the engine has played them.
    have hturn := turn_of_goes (Procedure.goes_run Simulation.answer
      (w.inventory.perform registry step.fresh step.operation) w.engine)
    have hplays := Procedure.plays_run Simulation.answer
      (w.inventory.perform registry step.fresh step.operation) w.engine
    rw [act, Step.take]
    generalize (w.inventory.perform registry step.fresh step.operation).run Simulation.answer
      w.engine = course at hturn hplays ⊢
    obtain ⟨events, result, s'⟩ := course
    replace hplays : Plays Simulation.answer w.engine events s' := hplays
    show Shift registry w ⟨w.inventory.after events, s'⟩
    replace hturn : Turn registry step.fresh w.inventory step.operation events result := hturn
    generalize step.operation = op at hturn
    cases hturn with
    | idle ht =>
      refine .same (fun k => ?_) (sameObjects_of_plays ht hplays)
      rw [Inventory.after_map_asked]
    | @paged request t page cursors ht hcursors =>
      rw [plays_append] at hplays
      obtain ⟨s₁, hread, rfl⟩ := hplays
      refine .same (fun k => ?_) (sameObjects_of_plays ht hread)
      rw [Inventory.after_append, Inventory.after_map_asked]
      cases k <;> rfl
    | @made _ place draft made t hop hnew ht =>
      rw [plays_append] at hplays
      obtain ⟨s₁, hmake, rfl⟩ := hplays
      rw [Inventory.after_append, Inventory.after_map_asked]
      obtain ⟨hplace, hid, -⟩ := Operation.placed_of_draft? hop
      exact .made hplace (Check.whole_of_isId hid) hnew rfl (gain_of_made ht hmake)
    | unmade hop hnew ht =>
      rcases same_or_litter_of_unmade ht hplays with hsame | hlitter
      · refine .same (fun k => ?_) hsame
        rw [Inventory.after_map_asked]
      · exact .littered (Inventory.after_map_asked _ _) hlitter
    | revised hsupported hkept hrevise =>
      cases hplays
      exact .revised hsupported hkept hrevise rfl (.refl _)
    | @dropped request record call t hkept hcall ht =>
      -- What is left to do after the record has gone keeps the objects.
      obtain ⟨hanswer, htidy⟩ := hplays
      rw [Inventory.after_asked, Inventory.after_changed, Inventory.after_map_asked]
      exact .dropped hkept rfl
        (loss_of_removal hcall (Prod.ext hanswer rfl) (sameObjects_of_plays ht htidy))
    | @held request record call answer e hkept hcall hanswer =>
      obtain ⟨hasked, rfl⟩ := hplays
      have hsame : (w.engine.answer call).2 = w.engine :=
        eq_of_held hcall hanswer (Prod.ext hasked rfl)
      refine .same (fun _ => rfl) ?_
      show SameObjects w.engine (w.engine.answer call).2
      rw [hsame]
      exact .refl _

end World

end StorageControl
