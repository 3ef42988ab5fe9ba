/-
# What the simulated engine does

For every method that makes or removes an object: when the call is granted, what the engine holds
then, and that a call that is not granted changes nothing. The other methods leave the objects as
they are.
-/
import StorageControl.Engine.Simulation
import StorageControl.Proofs.Family
import StorageControl.Proofs.Name
import StorageControl.Proofs.Parameters

namespace StorageControl.Engine.Simulation

variable {α : Type}

/-! ## Calls with parameters -/

/-- The engine receives the parameters that were sent. -/
theorem receive_encode {c : Codec α} (hc : c.Lawful) (a : α) :
    receive c (some (c.encode a)) = .ok a := by
  rw [receive, Option.getD_some, hc a]

/-- What comes of a call that is carried out. -/
def settled (write : α → Json) : Except Fault (α × Simulation) → Simulation → Answer × Simulation
  | .ok (a, s), _ => (.ok (write a), s)
  | .error fault, s => (.error fault, s)

/-- An answer is what the method comes to, and a fault leaves the engine as it was. -/
theorem answer_eq_settled (s : Simulation) (call : Call) :
    s.answer call = settled id (s.respond call.params call.method) s := by
  unfold answer
  cases s.respond call.params call.method <;> rfl

/-- A call is carried out with the parameters that it was made with. -/
theorem answer_on {β : Type} {m : Method} {c : Codec α} (hc : c.Lawful) (write : β → Json)
    (f : Simulation → α → Except Fault (β × Simulation))
    (hm : ∀ s params, respond s params m = do
      let p ← receive c params
      let (b, s) ← f s p
      return (write b, s)) (s : Simulation) (p : α) :
    s.answer (m.on c p) = settled write (f s p) s := by
  rw [answer_eq_settled, hm, receive_encode hc]
  cases hf : f s p <;> simp [hf, settled, bind, Except.bind, pure, Except.pure]

/-- A method that is granted when it is carried out. -/
theorem answer_granting {m : Method} {c : Codec α} (hc : c.Lawful)
    (f : Simulation → α → Except Fault Simulation)
    (hm : ∀ s params, respond s params m = do
      return granting (← f s (← receive c params))) (s : Simulation) (p : α) :
    s.answer (m.on c p) = settled (fun _ => .bool true) ((f s p).map ((), ·)) s := by
  rw [answer_eq_settled, hm, receive_encode hc]
  cases hf : f s p <;> simp [hf, settled, granting, Except.map, bind, Except.bind, pure, Except.pure]

/-! ## Subsystems -/

/-- The row of a new subsystem. -/
def newRow (p : CreateSubsystem) : SubsystemRow where
  nqn := p.nqn
  subtype := "NVMe"
  allowAnyHost := p.allowAnyHost
  serialNumber := p.serialNumber
  modelNumber := p.modelNumber
  maxNamespaces := p.maxNamespaces

/-- A subsystem that is made does not serve discovery. -/
theorem isDiscovery_newRow (p : CreateSubsystem) : (newRow p).isDiscovery = false := by
  show (lowercase "NVMe" == lowercase "discovery") = false
  decide

/-- The entry of a host in a row. -/
def hostEntry (host : String) : Json :=
  .object [("nqn", .str host)]

/-- A subsystem is made under a qualified name that is free. -/
theorem answer_createSubsystem (s : Simulation) (p : CreateSubsystem) :
    (s.subsystems.find? p.nqn = none ∧
        s.answer (Method.createSubsystem.on CreateSubsystem.codec p) =
          (.ok (.bool true), s.withSubsystem p.nqn (newRow p))) ∨
      ∃ e, s.answer (Method.createSubsystem.on CreateSubsystem.codec p) = (.error e, s) := by
  rw [answer_granting (CreateSubsystem.codec_sound 0).lawful createSubsystem fun _ _ => rfl,
    createSubsystem, Table.contains]
  cases hfind : s.subsystems.find? p.nqn with
  | none => exact .inl ⟨rfl, rfl⟩
  | some row => exact .inr ⟨_, rfl⟩

/-- A subsystem that is there is deleted, with all that is in its row. -/
theorem answer_deleteSubsystem (s : Simulation) (nqn : String) :
    (∃ row, s.subsystems.find? nqn = some row ∧
        s.answer (Method.deleteSubsystem.on SubsystemRef.codec ⟨nqn⟩) =
          (.ok (.bool true), { s with subsystems := s.subsystems.erase nqn })) ∨
      ∃ e, s.subsystems.find? nqn = none ∧
        s.answer (Method.deleteSubsystem.on SubsystemRef.codec ⟨nqn⟩) = (.error e, s) := by
  rw [answer_granting (SubsystemRef.codec_sound 0).lawful deleteSubsystem fun _ _ => rfl,
    deleteSubsystem]
  cases hfind : s.subsystems.find? nqn with
  | none => exact .inr ⟨_, rfl, rfl⟩
  | some row => exact .inl ⟨row, rfl, rfl⟩

/-- A host is added to a subsystem that is there, also when it has been added before. -/
theorem answer_addHost (s : Simulation) (p : AddHost) :
    (∃ row, s.subsystems.find? p.nqn = some row ∧
        s.answer (Method.addHost.on AddHost.codec p) =
          (.ok (.bool true),
            s.withSubsystem p.nqn { row with hosts := row.hosts ++ [hostEntry p.host] })) ∨
      ∃ e, s.subsystems.find? p.nqn = none ∧
        s.answer (Method.addHost.on AddHost.codec p) = (.error e, s) := by
  rw [answer_granting (AddHost.codec_sound 0).lawful addHost fun _ _ => rfl, addHost]
  cases hfind : s.subsystems.find? p.nqn with
  | none => exact .inr ⟨_, rfl, rfl⟩
  | some row => exact .inl ⟨row, rfl, rfl⟩

theorem answer_getVersion (s : Simulation) :
    s.answer ⟨.getVersion, none⟩ = (.ok (Version.codec.encode version), s) :=
  rfl

/-! ## Listeners -/

/-- A listener is added to a subsystem that is there, at an endpoint where it does not listen yet.
-/
theorem answer_addListener (s : Simulation) (p : Listener) :
    (∃ row, s.subsystems.find? p.nqn = some row ∧
        row.listenAddresses.any (·.sameEndpoint p.listenAddress) = false ∧
        s.answer (Method.addListener.on Listener.codec p) =
          (.ok (.bool true), s.withSubsystem p.nqn
            { row with listenAddresses := row.listenAddresses ++ [p.listenAddress] })) ∨
      ∃ e, s.answer (Method.addListener.on Listener.codec p) = (.error e, s) := by
  rw [answer_granting (Listener.codec_sound 0).lawful addListener fun _ _ => rfl, addListener]
  cases hfind : s.subsystems.find? p.nqn with
  | none => exact .inr ⟨_, rfl⟩
  | some row =>
    cases hany : row.listenAddresses.any (·.sameEndpoint p.listenAddress) with
    | true =>
      refine .inr ⟨taken p.listenAddress.traddr, ?_⟩
      simp [demand, hany, settled, bind, Except.bind, Except.map]
    | false =>
      refine .inl ⟨row, rfl, hany, ?_⟩
      simp [demand, hany, settled, bind, Except.bind, Except.map]

/-- A filter that drops something shortens the list, and the other way round. -/
theorem length_filter_ne_iff {p : α → Bool} {l : List α} :
    (l.filter fun a => !p a).length ≠ l.length ↔ l.any p = true := by
  rw [Ne, List.length_filter_eq_length_iff, List.any_eq_true]
  simp

/-- Removing a listener removes all at the same endpoint. -/
theorem answer_removeListener_of_used {s : Simulation} {p : Listener} {row : SubsystemRow}
    (hrow : s.subsystems.find? p.nqn = some row)
    (hused : row.listenAddresses.any (·.sameEndpoint p.listenAddress) = true) :
    s.answer (Method.removeListener.on Listener.codec p) =
      (.ok (.bool true), s.withSubsystem p.nqn
        { row with
          listenAddresses :=
            row.listenAddresses.filter fun l => !l.sameEndpoint p.listenAddress }) := by
  have hne := length_filter_ne_iff.2 hused
  rw [answer_granting (Listener.codec_sound 0).lawful removeListener fun _ _ => rfl,
    removeListener, hrow]
  simp [demand, hne, settled, bind, Except.bind, Except.map]

/-- A listener is removed from a subsystem that is there and listens at the endpoint. -/
theorem answer_removeListener (s : Simulation) (p : Listener) :
    (∃ row, s.subsystems.find? p.nqn = some row ∧
        row.listenAddresses.any (·.sameEndpoint p.listenAddress) = true ∧
        s.answer (Method.removeListener.on Listener.codec p) =
          (.ok (.bool true), s.withSubsystem p.nqn
            { row with
              listenAddresses :=
                row.listenAddresses.filter fun l => !l.sameEndpoint p.listenAddress })) ∨
      ∃ e, s.answer (Method.removeListener.on Listener.codec p) = (.error e, s) := by
  cases hfind : s.subsystems.find? p.nqn with
  | none =>
    rw [answer_granting (Listener.codec_sound 0).lawful removeListener fun _ _ => rfl,
      removeListener, hfind]
    exact .inr ⟨_, rfl⟩
  | some row =>
    cases hany : row.listenAddresses.any (·.sameEndpoint p.listenAddress) with
    | true => exact .inl ⟨row, rfl, hany, answer_removeListener_of_used hfind hany⟩
    | false =>
      refine .inr ⟨missing p.listenAddress.traddr, ?_⟩
      have heq : (row.listenAddresses.filter fun l => !l.sameEndpoint p.listenAddress).length =
          row.listenAddresses.length := by
        by_contra hne
        rw [length_filter_ne_iff.1 hne] at hany
        cases hany
      rw [answer_granting (Listener.codec_sound 0).lawful removeListener fun _ _ => rfl,
        removeListener, hfind]
      simp [demand, heq, settled, bind, Except.bind, Except.map]

/-! ## Namespaces -/

/-- The row of a new namespace. -/
def newNamespaceRow (nsid : Int32) (p : NamespaceParams) : NamespaceRow where
  nsid := nsid
  bdevName := p.bdevName
  name := p.bdevName
  uuid := p.uuid
  nguid := p.nguid
  eui64 := p.eui64

/-- A namespace is added to a subsystem that is there, under a number that is not in use. -/
theorem answer_addNamespace (s : Simulation) (p : AddNamespace) :
    (∃ row nsid, s.subsystems.find? p.nqn = some row ∧
        row.namespaces.any (·.nsid == nsid) = false ∧
        s.answer (Method.addNamespace.on AddNamespace.codec p) =
          (.ok (.ofInt nsid.toInt), s.withSubsystem p.nqn
            { row with namespaces := row.namespaces ++ [newNamespaceRow nsid p.params] })) ∨
      ∃ e, s.answer (Method.addNamespace.on AddNamespace.codec p) = (.error e, s) := by
  rw [answer_on (AddNamespace.codec_sound 0).lawful (fun nsid : Int32 => .ofInt nsid.toInt)
    addNamespace fun _ _ => rfl, addNamespace]
  cases hfind : s.subsystems.find? p.nqn with
  | none => exact .inr ⟨_, rfl⟩
  | some row =>
    generalize hnsid : chooseNsid p.params.nsid row.namespaces = nsid
    cases hany : row.namespaces.any (·.nsid == nsid) with
    | true =>
      refine .inr ⟨taken ("nsid " ++ toString nsid.toInt), ?_⟩
      simp [demand, hnsid, hany, settled, bind, Except.bind]
    | false =>
      refine .inl ⟨row, nsid, rfl, hany, ?_⟩
      simp [demand, hnsid, hany, settled, newNamespaceRow, bind, Except.bind]

/-- Removing a namespace removes all with its number. -/
theorem answer_removeNamespace_of_used {s : Simulation} {p : RemoveNamespace} {row : SubsystemRow}
    (hrow : s.subsystems.find? p.nqn = some row)
    (hused : row.namespaces.any (·.nsid == p.nsid) = true) :
    s.answer (Method.removeNamespace.on RemoveNamespace.codec p) =
      (.ok (.bool true), s.withSubsystem p.nqn
        { row with namespaces := row.namespaces.filter fun n => n.nsid != p.nsid }) := by
  have hne := length_filter_ne_iff.2 hused
  rw [answer_on (RemoveNamespace.codec_sound 0).lawful .bool removeNamespace fun _ _ => rfl,
    removeNamespace, hrow]
  simp [demand, hne, settled, bind, Except.bind, bne]

/-- A namespace is removed from a subsystem that is there and has the number. Where it does not have
it the engine answers false. -/
theorem answer_removeNamespace (s : Simulation) (p : RemoveNamespace) :
    (∃ row, s.subsystems.find? p.nqn = some row ∧
        row.namespaces.any (·.nsid == p.nsid) = true ∧
        s.answer (Method.removeNamespace.on RemoveNamespace.codec p) =
          (.ok (.bool true), s.withSubsystem p.nqn
            { row with namespaces := row.namespaces.filter fun n => n.nsid != p.nsid })) ∨
      ∃ answer, answer ≠ .ok (.bool true) ∧
        s.answer (Method.removeNamespace.on RemoveNamespace.codec p) = (answer, s) := by
  cases hfind : s.subsystems.find? p.nqn with
  | none =>
    refine .inr ⟨.error (missing p.nqn), by simp, ?_⟩
    rw [answer_on (RemoveNamespace.codec_sound 0).lawful .bool removeNamespace fun _ _ => rfl,
      removeNamespace, hfind]
    rfl
  | some row =>
    cases hany : row.namespaces.any (·.nsid == p.nsid) with
    | true => exact .inl ⟨row, rfl, hany, answer_removeNamespace_of_used hfind hany⟩
    | false =>
      -- Nothing is dropped, so the row that is put back is the one that was there.
      have hrest : (row.namespaces.filter fun n => n.nsid != p.nsid) = row.namespaces := by
        rw [List.filter_eq_self]
        intro n hn
        rw [List.any_eq_false] at hany
        simpa [bne] using hany n hn
      refine .inr ⟨.ok (.bool false), by simp, ?_⟩
      have hsame : s.withSubsystem p.nqn { row with namespaces := row.namespaces } = s := by
        rw [withSubsystem, Table.insert_eq_self hfind]
      rw [answer_on (RemoveNamespace.codec_sound 0).lawful .bool removeNamespace fun _ _ => rfl,
        removeNamespace, hfind]
      simpa [demand, hrest, settled, bind, Except.bind] using hsame

/-! ## Limits -/

/-- Limits are set on a volume that is there, whatever was set before. -/
theorem answer_setLimits (s : Simulation) (p : VolumeLimits) :
    (∃ row, s.volumes.find? p.name = some row ∧
        s.answer (Method.setLimits.on VolumeLimits.codec p) =
          (.ok (.bool true), { s with limits := s.limits.insert p.name p })) ∨
      ∃ e, s.volumes.find? p.name = none ∧
        s.answer (Method.setLimits.on VolumeLimits.codec p) = (.error e, s) := by
  rw [answer_granting (VolumeLimits.codec_sound 0).lawful setLimits fun _ _ => rfl, setLimits]
  cases hfind : s.volumes.find? p.name with
  | none => exact .inr ⟨_, rfl, rfl⟩
  | some row => exact .inl ⟨row, rfl, rfl⟩

/-- The limits in force on a volume. Where none have been set they are all zero. -/
def limitsOf (s : Simulation) (volume : String) : VolumeLimits :=
  { (s.limits.find? volume).getD { name := volume } with name := volume }

/-- The limits that were set last are in force, and those of the other volumes stay. -/
theorem limitsOf_insert (s : Simulation) (p : VolumeLimits) (volume : String) :
    { s with limits := s.limits.insert p.name p }.limitsOf volume =
      if volume = p.name then p else s.limitsOf volume := by
  rw [limitsOf, Table.find?_insert]
  split
  · rename_i h
    rw [h]
    rfl
  · rfl

/-! ## vhost controllers -/

/-- The row of a new vhost controller. -/
def newVhostRow (id : String) (backend : Backend) : VhostRow where
  ctrlr := id
  cpumask := "0x1"
  socket := "/var/tmp/" ++ id
  backend := backend

/-- A vhost controller is made under an id that is free. -/
theorem createVhost_cases (s : Simulation) (id : String) (backend : Backend) :
    (s.vhosts.find? id = none ∧ s.createVhost id backend =
        .ok { s with vhosts := s.vhosts.insert id (newVhostRow id backend) }) ∨
      ∃ e, s.vhosts.find? id ≠ none ∧ s.createVhost id backend = .error e := by
  rw [createVhost, Table.contains]
  cases hfind : s.vhosts.find? id with
  | none => exact .inl ⟨rfl, rfl⟩
  | some row => exact .inr ⟨_, nofun, rfl⟩

/-- A vhost controller for a volume is made under an id that is free. -/
theorem answer_createBlkController (s : Simulation) (p : CreateBlkController) :
    (s.vhosts.find? p.ctrlr = none ∧
        s.answer (Method.createBlkController.on CreateBlkController.codec p) =
          (.ok (.bool true),
            { s with
              vhosts := s.vhosts.insert p.ctrlr
                (newVhostRow p.ctrlr { block := some { bdev := p.devName } }) })) ∨
      ∃ e, s.vhosts.find? p.ctrlr ≠ none ∧
        s.answer (Method.createBlkController.on CreateBlkController.codec p) =
          (.error e, s) := by
  rw [answer_granting (CreateBlkController.codec_sound 0).lawful createBlkController fun _ _ => rfl,
    createBlkController]
  rcases s.createVhost_cases p.ctrlr { block := some { bdev := p.devName } } with
    ⟨hfind, h⟩ | ⟨e, htaken, h⟩
  · rw [h]
    exact .inl ⟨hfind, rfl⟩
  · rw [h]
    exact .inr ⟨e, htaken, rfl⟩

/-- A vhost controller for a bus is made under an id that is free, without targets. -/
theorem answer_createScsiController (s : Simulation) (p : VhostRef) :
    (s.vhosts.find? p.ctrlr = none ∧
        s.answer (Method.createScsiController.on VhostRef.codec p) =
          (.ok (.bool true),
            { s with
              vhosts := s.vhosts.insert p.ctrlr (newVhostRow p.ctrlr { scsi := some [] }) })) ∨
      ∃ e, s.answer (Method.createScsiController.on VhostRef.codec p) = (.error e, s) := by
  rw [answer_granting (VhostRef.codec_sound 0).lawful createScsiController fun _ _ => rfl,
    createScsiController]
  rcases s.createVhost_cases p.ctrlr { scsi := some [] } with ⟨hfind, h⟩ | ⟨e, -, h⟩
  · rw [h]
    exact .inl ⟨hfind, rfl⟩
  · rw [h]
    exact .inr ⟨e, rfl⟩

/-- A vhost controller that is there is deleted, be it for a volume or for a bus. -/
theorem answer_deleteVhost (s : Simulation) (p : VhostRef) :
    (∃ row, s.vhosts.find? p.ctrlr = some row ∧
        s.answer (Method.deleteVhostController.on VhostRef.codec p) =
          (.ok (.bool true), { s with vhosts := s.vhosts.erase p.ctrlr })) ∨
      ∃ e, s.vhosts.find? p.ctrlr = none ∧
        s.answer (Method.deleteVhostController.on VhostRef.codec p) = (.error e, s) := by
  rw [answer_granting (VhostRef.codec_sound 0).lawful deleteVhost fun _ _ => rfl, deleteVhost]
  cases hfind : s.vhosts.find? p.ctrlr with
  | none => exact .inr ⟨_, rfl, rfl⟩
  | some row => exact .inl ⟨row, rfl, rfl⟩

/-! ## Targets -/

/-- A bus is found under an id if there is a vhost controller with a bus. -/
theorem scsiBus_cases (s : Simulation) (id : String) :
    (∃ row targets, s.vhosts.find? id = some row ∧ row.backend.scsi = some targets ∧
        s.scsiBus id = .ok (row, targets)) ∨
      ∃ e, s.scsiBus id = .error e := by
  rw [scsiBus]
  cases hfind : s.vhosts.find? id with
  | none => exact .inr ⟨_, rfl⟩
  | some row =>
    cases htargets : row.backend.scsi with
    | none =>
      refine .inr ⟨missing id, ?_⟩
      simp [demand, htargets, bind, Except.bind]
    | some targets =>
      refine .inl ⟨row, targets, rfl, htargets, ?_⟩
      simp [demand, htargets, bind, Except.bind]

/-- The row of a new target. -/
def newTargetRow (n : Int32) (volume : String) : TargetRow where
  scsiDevNum := n
  id := n
  targetName := "Target " ++ toString n.toInt
  luns := [{ id := 0, bdevName := volume }]

/-- A target is added to a bus that is there, under a number that is not in use. -/
theorem answer_addTarget (s : Simulation) (p : AddTarget) :
    (∃ row targets n, s.vhosts.find? p.ctrlr = some row ∧ row.backend.scsi = some targets ∧
        usesTarget targets n = false ∧
        s.answer (Method.addTarget.on AddTarget.codec p) =
          (.ok (.ofInt n.toInt),
            s.withTargets p.ctrlr row (targets ++ [newTargetRow n p.bdevName]))) ∨
      ∃ e, s.answer (Method.addTarget.on AddTarget.codec p) = (.error e, s) := by
  rw [answer_on (AddTarget.codec_sound 0).lawful (fun n : Int32 => .ofInt n.toInt) addTarget
    fun _ _ => rfl, addTarget]
  rcases s.scsiBus_cases p.ctrlr with ⟨row, targets, hfind, htargets, hbus⟩ | ⟨e, hbus⟩
  · rw [hbus]
    generalize hn : chooseTarget p.scsiTargetNum targets = n
    cases huses : usesTarget targets n with
    | true =>
      refine .inr ⟨taken ("target " ++ toString n.toInt), ?_⟩
      simp [hn, huses, settled, bind, Except.bind]
    | false =>
      refine .inl ⟨row, targets, n, hfind, htargets, huses, ?_⟩
      simp [hn, huses, settled, newTargetRow, bind, Except.bind]
  · rw [hbus]
    exact .inr ⟨e, rfl⟩

/-- Removing a target removes all with its number. -/
theorem answer_removeTarget_of_used {s : Simulation} {p : RemoveTarget} {row : VhostRow}
    {targets : List TargetRow} (hrow : s.vhosts.find? p.ctrlr = some row)
    (htargets : row.backend.scsi = some targets)
    (hused : usesTarget targets p.scsiTargetNum = true) :
    s.answer (Method.removeTarget.on RemoveTarget.codec p) =
      (.ok (.bool true), s.withTargets p.ctrlr row
        (targets.filter fun t => t.scsiDevNum != p.scsiTargetNum)) := by
  have hne := length_filter_ne_iff.2 hused
  have hbus : s.scsiBus p.ctrlr = .ok (row, targets) := by
    simp [scsiBus, hrow, demand, htargets, bind, Except.bind]
  rw [answer_on (RemoveTarget.codec_sound 0).lawful .bool removeTarget fun _ _ => rfl,
    removeTarget, hbus]
  simp [hne, settled, bind, Except.bind, bne]

/-- A target is removed from a bus that is there and has the number. Where it does not have it the
engine answers false. -/
theorem answer_removeTarget (s : Simulation) (p : RemoveTarget) :
    (∃ row targets, s.vhosts.find? p.ctrlr = some row ∧ row.backend.scsi = some targets ∧
        usesTarget targets p.scsiTargetNum = true ∧
        s.answer (Method.removeTarget.on RemoveTarget.codec p) =
          (.ok (.bool true), s.withTargets p.ctrlr row
            (targets.filter fun t => t.scsiDevNum != p.scsiTargetNum))) ∨
      ∃ answer, answer ≠ .ok (.bool true) ∧
        s.answer (Method.removeTarget.on RemoveTarget.codec p) = (answer, s) := by
  rcases s.scsiBus_cases p.ctrlr with ⟨row, targets, hfind, htargets, hbus⟩ | ⟨e, hbus⟩
  · cases huses : usesTarget targets p.scsiTargetNum with
    | true =>
      exact .inl ⟨row, targets, hfind, htargets, huses,
        answer_removeTarget_of_used hfind htargets huses⟩
    | false =>
      -- Nothing is dropped, so the row that is put back is the one that was there.
      have hrest : (targets.filter fun t => t.scsiDevNum != p.scsiTargetNum) = targets := by
        rw [List.filter_eq_self]
        intro t ht
        rw [usesTarget, List.any_eq_false] at huses
        simpa [bne] using huses t ht
      refine .inr ⟨.ok (.bool false), by simp, ?_⟩
      have hsame : s.withTargets p.ctrlr row targets = s := by
        rw [withTargets, ← htargets]
        simp [Table.insert_eq_self hfind]
      rw [answer_on (RemoveTarget.codec_sound 0).lawful .bool removeTarget fun _ _ => rfl,
        removeTarget, hbus]
      simpa [hrest, settled, bind, Except.bind] using hsame
  · rw [answer_on (RemoveTarget.codec_sound 0).lawful .bool removeTarget fun _ _ => rfl,
      removeTarget, hbus]
    exact .inr ⟨.error e, by simp, rfl⟩

/-! ## The other methods -/

/-- The engine holds the same subsystems and the same vhost controllers. -/
def SameObjects (s s' : Simulation) : Prop :=
  s'.subsystems = s.subsystems ∧ s'.vhosts = s.vhosts

theorem SameObjects.refl (s : Simulation) : SameObjects s s :=
  ⟨rfl, rfl⟩

theorem SameObjects.trans {s₁ s₂ s₃ : Simulation} (h₁ : SameObjects s₁ s₂)
    (h₂ : SameObjects s₂ s₃) : SameObjects s₁ s₃ :=
  ⟨h₂.1.trans h₁.1, h₂.2.trans h₁.2⟩

/-- A method that makes and removes no object leaves the objects as they are. -/
theorem sameObjects_answer {call : Call} (h : call.method.keepsObjects = true) (s : Simulation) :
    SameObjects s (s.answer call).2 := by
  obtain ⟨m, params⟩ := call
  unfold answer
  cases hrespond : s.respond params m with
  | error fault => exact .refl s
  | ok done =>
    obtain ⟨v, s'⟩ := done
    show SameObjects s s'
    cases m with
    | getVersion | getSubsystems | getTargetStats =>
      cases hrespond
      exact .refl s
    | getVolumeStats | getVhostControllers =>
      obtain ⟨p, -, hrespond⟩ := Check.bind_eq_ok_iff.1 hrespond
      obtain ⟨report, -, hrespond⟩ := Check.bind_eq_ok_iff.1 hrespond
      cases hrespond
      exact .refl s
    | setLimits =>
      -- Limits are written into the row of a volume, which is no object of a record.
      obtain ⟨p, -, hrespond⟩ := Check.bind_eq_ok_iff.1 hrespond
      obtain ⟨s₁, hset, hrespond⟩ := Check.bind_eq_ok_iff.1 hrespond
      cases hrespond
      obtain ⟨row, -, hset⟩ := Check.bind_eq_ok_iff.1 hset
      cases hset
      exact .refl s
    | _ => cases h

/-- The engine holds the same volumes, and the same limits are set on them. -/
def SameVolumes (s s' : Simulation) : Prop :=
  s'.volumes = s.volumes ∧ s'.limits = s.limits

theorem SameVolumes.refl (s : Simulation) : SameVolumes s s :=
  ⟨rfl, rfl⟩

theorem SameVolumes.trans {s₁ s₂ s₃ : Simulation} (h₁ : SameVolumes s₁ s₂)
    (h₂ : SameVolumes s₂ s₃) : SameVolumes s₁ s₃ :=
  ⟨h₂.1.trans h₁.1, h₂.2.trans h₁.2⟩

/-- A method that sets no limits leaves the volumes and their limits as they are. -/
theorem sameVolumes_answer {call : Call} (h : call.method ≠ .setLimits) (s : Simulation) :
    SameVolumes s (s.answer call).2 := by
  obtain ⟨m, params⟩ := call
  unfold answer
  cases hrespond : s.respond params m with
  | error fault => exact .refl s
  | ok done =>
    obtain ⟨v, s'⟩ := done
    show SameVolumes s s'
    cases m with
    | setLimits => exact absurd rfl h
    | getVersion | getSubsystems | getTargetStats =>
      cases hrespond
      exact .refl s
    | getVolumeStats | getVhostControllers =>
      obtain ⟨p, -, hrespond⟩ := Check.bind_eq_ok_iff.1 hrespond
      obtain ⟨report, -, ⟨⟩⟩ := Check.bind_eq_ok_iff.1 hrespond
      exact .refl s
    -- What is made or removed is a subsystem, a vhost controller, or something in the row of one.
    | createSubsystem | createBlkController | createScsiController =>
      obtain ⟨p, -, hrespond⟩ := Check.bind_eq_ok_iff.1 hrespond
      obtain ⟨s₁, hdone, ⟨⟩⟩ := Check.bind_eq_ok_iff.1 hrespond
      obtain ⟨-, ⟨⟩⟩ := Check.unless_eq_ok_iff.1 hdone
      exact .refl s
    | deleteSubsystem | addHost | deleteVhostController =>
      obtain ⟨p, -, hrespond⟩ := Check.bind_eq_ok_iff.1 hrespond
      obtain ⟨s₁, hdone, ⟨⟩⟩ := Check.bind_eq_ok_iff.1 hrespond
      obtain ⟨row, -, ⟨⟩⟩ := Check.bind_eq_ok_iff.1 hdone
      exact .refl s
    | addListener | removeListener =>
      obtain ⟨p, -, hrespond⟩ := Check.bind_eq_ok_iff.1 hrespond
      obtain ⟨s₁, hdone, ⟨⟩⟩ := Check.bind_eq_ok_iff.1 hrespond
      obtain ⟨row, -, hdone⟩ := Check.bind_eq_ok_iff.1 hdone
      obtain ⟨-, ⟨⟩⟩ := Check.unless_eq_ok_iff.1 hdone
      exact .refl s
    | addNamespace | addTarget =>
      obtain ⟨p, -, hrespond⟩ := Check.bind_eq_ok_iff.1 hrespond
      obtain ⟨⟨n, s₁⟩, hdone, ⟨⟩⟩ := Check.bind_eq_ok_iff.1 hrespond
      obtain ⟨row, -, hdone⟩ := Check.bind_eq_ok_iff.1 hdone
      obtain ⟨-, ⟨⟩⟩ := Check.unless_eq_ok_iff.1 hdone
      exact .refl s
    | removeNamespace | removeTarget =>
      obtain ⟨p, -, hrespond⟩ := Check.bind_eq_ok_iff.1 hrespond
      obtain ⟨⟨removed, s₁⟩, hdone, ⟨⟩⟩ := Check.bind_eq_ok_iff.1 hrespond
      obtain ⟨row, -, ⟨⟩⟩ := Check.bind_eq_ok_iff.1 hdone
      exact .refl s

/-- No call makes or removes a volume. -/
theorem volumes_answer (s : Simulation) (call : Call) : (s.answer call).2.volumes = s.volumes := by
  by_cases h : call.method = .setLimits
  · obtain ⟨m, params⟩ := call
    cases h
    unfold answer
    cases hrespond : s.respond params .setLimits with
    | error fault => rfl
    | ok done =>
      obtain ⟨v, s'⟩ := done
      obtain ⟨p, -, hrespond⟩ := Check.bind_eq_ok_iff.1 hrespond
      obtain ⟨s₁, hset, ⟨⟩⟩ := Check.bind_eq_ok_iff.1 hrespond
      obtain ⟨row, -, ⟨⟩⟩ := Check.bind_eq_ok_iff.1 hset
      rfl
  · exact (sameVolumes_answer h s).1

end StorageControl.Engine.Simulation
