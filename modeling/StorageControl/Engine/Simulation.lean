/-
# A simulated engine

An engine that keeps just enough to answer every method: subsystems with their listeners, hosts
and namespaces, volumes with their counters and limits, and vhost controllers with their targets.
A method that fails changes nothing.
-/
import StorageControl.Engine.Row
import StorageControl.Engine.Script
import StorageControl.Table

namespace StorageControl.Engine

/-! ## State -/

/-- What the engine holds: subsystems by qualified name, volumes and their limits by name, vhost
controllers by id. -/
structure Simulation where
  subsystems : Table SubsystemRow := {}
  volumes : Table VolumeRow := {}
  limits : Table VolumeLimits := {}
  vhosts : Table VhostRow := {}
deriving Inhabited

namespace Simulation

/-- The qualified name of the subsystem that serves discovery. -/
def discoveryNqn : String := "nqn.2014-08.org.nvmexpress.discovery"

/-- The subsystem that serves discovery. -/
def discovery : SubsystemRow where
  nqn := discoveryNqn
  subtype := "Discovery"
  allowAnyHost := true

/-- An engine that has just been started. -/
def start : Simulation where
  subsystems := Table.empty.insert discoveryNqn discovery

/-- Puts a volume there, in place of the one with its name. -/
def putVolume (s : Simulation) (row : VolumeRow) : Simulation :=
  { s with volumes := s.volumes.insert row.name row }

/-! ## Errors -/

/-- There is no such thing. -/
def missing (what : String) : Fault :=
  .declined (-19) ("No such device: " ++ what)

/-- There is such a thing already. -/
def taken (what : String) : Fault :=
  .declined (-17) ("File exists: " ++ what)

/-- The parameters are not those of the method. -/
def unreadable : Fault :=
  .declined (-32602) "Invalid parameters: not the parameters of the method"

/-- There is no such method. -/
def unknownMethod (name : String) : Fault :=
  .declined (-32601) ("Method not found: " ++ name)

/-- A value that must be there. -/
def demand {α : Type} (what : String) : Option α → Except Fault α
  | some a => .ok a
  | none => .error (missing what)

/-! ## Subsystems -/

/-- The version of the engine. -/
def version : Version where
  version := "SPDK v23.01"
  fields := { major := 23, minor := 1 }

/-- Makes a subsystem. -/
def createSubsystem (s : Simulation) (p : CreateSubsystem) : Except Fault Simulation :=
  if s.subsystems.contains p.nqn then .error (taken p.nqn)
  else
    let row : SubsystemRow :=
      { nqn := p.nqn
        subtype := "NVMe"
        allowAnyHost := p.allowAnyHost
        serialNumber := p.serialNumber
        modelNumber := p.modelNumber
        maxNamespaces := p.maxNamespaces }
    .ok { s with subsystems := s.subsystems.insert p.nqn row }

/-- Deletes a subsystem. -/
def deleteSubsystem (s : Simulation) (p : SubsystemRef) : Except Fault Simulation := do
  let _ ← demand p.nqn (s.subsystems.find? p.nqn)
  .ok { s with subsystems := s.subsystems.erase p.nqn }

/-- Changes the row of a subsystem. -/
def withSubsystem (s : Simulation) (nqn : String) (row : SubsystemRow) : Simulation :=
  { s with subsystems := s.subsystems.insert nqn row }

/-- Lets a host connect to a subsystem. -/
def addHost (s : Simulation) (p : AddHost) : Except Fault Simulation := do
  let row ← demand p.nqn (s.subsystems.find? p.nqn)
  let host := Json.object [("nqn", .str p.host)]
  .ok (s.withSubsystem p.nqn { row with hosts := row.hosts ++ [host] })

/-! ## Listeners -/

/-- Makes a subsystem listen at an address where it does not listen yet. -/
def addListener (s : Simulation) (p : Listener) : Except Fault Simulation := do
  let row ← demand p.nqn (s.subsystems.find? p.nqn)
  if row.listenAddresses.any (·.sameEndpoint p.listenAddress) then
    .error (taken p.listenAddress.traddr)
  else
    .ok (s.withSubsystem p.nqn
      { row with listenAddresses := row.listenAddresses ++ [p.listenAddress] })

/-- Stops a subsystem from listening at an address. -/
def removeListener (s : Simulation) (p : Listener) : Except Fault Simulation := do
  let row ← demand p.nqn (s.subsystems.find? p.nqn)
  let rest := row.listenAddresses.filter fun l => !l.sameEndpoint p.listenAddress
  if rest.length = row.listenAddresses.length then .error (missing p.listenAddress.traddr)
  else .ok (s.withSubsystem p.nqn { row with listenAddresses := rest })

/-! ## Namespaces -/

/-- The number after the greatest one in use, or one if there is none. -/
def nextNsid (rows : List NamespaceRow) : Int32 :=
  (((rows.map fun row => row.nsid.toInt).max?).getD 0 + 1).toInt32

/-- The number of a new namespace: the one asked for if it is positive, else the next one. -/
def chooseNsid (requested : Option Int32) (rows : List NamespaceRow) : Int32 :=
  match requested with
  | some nsid => if nsid > 0 then nsid else nextNsid rows
  | none => nextNsid rows

/-- Attaches a volume to a subsystem. -/
def addNamespace (s : Simulation) (p : AddNamespace) : Except Fault (Int32 × Simulation) := do
  let row ← demand p.nqn (s.subsystems.find? p.nqn)
  let nsid := chooseNsid p.params.nsid row.namespaces
  if row.namespaces.any (·.nsid == nsid) then .error (taken ("nsid " ++ toString nsid.toInt))
  else
    let attached : NamespaceRow :=
      { nsid
        bdevName := p.params.bdevName
        name := p.params.bdevName
        uuid := p.params.uuid
        nguid := p.params.nguid
        eui64 := p.params.eui64 }
    .ok (nsid, s.withSubsystem p.nqn { row with namespaces := row.namespaces ++ [attached] })

/-- Detaches a volume from a subsystem. Tells whether there was one. -/
def removeNamespace (s : Simulation) (p : RemoveNamespace) : Except Fault (Bool × Simulation) := do
  let row ← demand p.nqn (s.subsystems.find? p.nqn)
  let rest := row.namespaces.filter fun n => n.nsid != p.nsid
  .ok (rest.length != row.namespaces.length,
    s.withSubsystem p.nqn { row with namespaces := rest })

/-! ## Volumes -/

/-- The ticks of the engine in a second. -/
def tickRate : Int64 := 2000000000

/-- The counters of a volume. -/
def volumeStats (s : Simulation) (p : VolumeRef) : Except Fault VolumeReport := do
  let row ← demand p.name (s.volumes.find? p.name)
  .ok { tickRate, ticks := 1, bdevs := [row] }

/-- The counters of the target, of which the engine reports the main ones. -/
def targetStats : Json :=
  .object
    [("tick_rate", .ofInt tickRate.toInt),
     ("poll_groups", .arr
       [.object
         [("name", .str "nvmf_tgt_poll_group_000"), ("admin_qpairs", .ofInt 0),
          ("io_qpairs", .ofInt 0)]])]

/-- Sets the limits of a volume. -/
def setLimits (s : Simulation) (p : VolumeLimits) : Except Fault Simulation := do
  let _ ← demand p.name (s.volumes.find? p.name)
  .ok { s with limits := s.limits.insert p.name p }

/-! ## vhost controllers -/

/-- Makes a vhost controller with a backend. -/
def createVhost (s : Simulation) (id : String) (backend : Backend) : Except Fault Simulation :=
  if s.vhosts.contains id then .error (taken id)
  else
    let row : VhostRow := { ctrlr := id, cpumask := "0x1", socket := "/var/tmp/" ++ id, backend }
    .ok { s with vhosts := s.vhosts.insert id row }

/-- Makes a vhost controller with a volume. -/
def createBlkController (s : Simulation) (p : CreateBlkController) : Except Fault Simulation :=
  s.createVhost p.ctrlr { block := some { bdev := p.devName } }

/-- Makes a vhost controller with a SCSI bus. -/
def createScsiController (s : Simulation) (p : VhostRef) : Except Fault Simulation :=
  s.createVhost p.ctrlr { scsi := some [] }

/-- Deletes a vhost controller. -/
def deleteVhost (s : Simulation) (p : VhostRef) : Except Fault Simulation := do
  let _ ← demand p.ctrlr (s.vhosts.find? p.ctrlr)
  .ok { s with vhosts := s.vhosts.erase p.ctrlr }

/-- The vhost controllers asked for. -/
def vhostControllers (s : Simulation) (p : VhostQuery) : Except Fault (List VhostRow) :=
  match p.name with
  | none => .ok s.vhosts.values
  | some id => do
    let row ← demand id (s.vhosts.find? id)
    .ok [row]

/-- A vhost controller and the targets on its SCSI bus. -/
def scsiBus (s : Simulation) (id : String) : Except Fault (VhostRow × List TargetRow) := do
  let row ← demand id (s.vhosts.find? id)
  let targets ← demand id row.backend.scsi
  .ok (row, targets)

/-- Changes the targets on the bus of a vhost controller. -/
def withTargets (s : Simulation) (id : String) (row : VhostRow) (targets : List TargetRow) :
    Simulation :=
  let backend := { row.backend with scsi := some targets }
  { s with vhosts := s.vhosts.insert id { row with backend } }

/-- A target has the number. -/
def usesTarget (targets : List TargetRow) (n : Int32) : Bool :=
  targets.any (·.scsiDevNum == n)

/-- The first number that no target has; it is at most as great as their count. -/
def freeTarget (targets : List TargetRow) : Int32 :=
  let candidates := (List.range (targets.length + 1)).map Int32.ofNat
  (candidates.find? fun n => !usesTarget targets n).getD 0

/-- The number of a new target: the one asked for unless it is negative, else a free one. -/
def chooseTarget (requested : Int32) (targets : List TargetRow) : Int32 :=
  if requested ≥ 0 then requested else freeTarget targets

/-- Adds a volume to a SCSI bus. -/
def addTarget (s : Simulation) (p : AddTarget) : Except Fault (Int32 × Simulation) := do
  let (row, targets) ← s.scsiBus p.ctrlr
  let n := chooseTarget p.scsiTargetNum targets
  if usesTarget targets n then .error (taken ("target " ++ toString n.toInt))
  else
    let added : TargetRow :=
      { scsiDevNum := n
        id := n
        targetName := "Target " ++ toString n.toInt
        luns := [{ id := 0, bdevName := p.bdevName }] }
    .ok (n, s.withTargets p.ctrlr row (targets ++ [added]))

/-- Removes a target from a SCSI bus. Tells whether there was one. -/
def removeTarget (s : Simulation) (p : RemoveTarget) : Except Fault (Bool × Simulation) := do
  let (row, targets) ← s.scsiBus p.ctrlr
  let rest := targets.filter fun t => t.scsiDevNum != p.scsiTargetNum
  .ok (rest.length != targets.length, s.withTargets p.ctrlr row rest)

/-! ## Calls -/

/-- Parameters as a value of a type. -/
def receive {α : Type} (c : Codec α) (params : Option Json) : Except Fault α :=
  match c.decode (params.getD .null) with
  | some a => .ok a
  | none => .error unreadable

/-- The answer to a call that did what it was asked. -/
def granting (s : Simulation) : Json × Simulation := (.bool true, s)

/-- Carries out a method. -/
def respond (s : Simulation) (params : Option Json) : Method → Except Fault (Json × Simulation)
  | .getVersion => .ok (Version.codec.encode version, s)
  | .createSubsystem => do
    return granting (← s.createSubsystem (← receive CreateSubsystem.codec params))
  | .deleteSubsystem => do
    return granting (← s.deleteSubsystem (← receive SubsystemRef.codec params))
  | .getSubsystems => .ok (SubsystemRow.codec.list.encode s.subsystems.values, s)
  | .getTargetStats => .ok (targetStats, s)
  | .addHost => do
    return granting (← s.addHost (← receive AddHost.codec params))
  | .addListener => do
    return granting (← s.addListener (← receive Listener.codec params))
  | .removeListener => do
    return granting (← s.removeListener (← receive Listener.codec params))
  | .addNamespace => do
    let (nsid, s) ← s.addNamespace (← receive AddNamespace.codec params)
    return (.ofInt nsid.toInt, s)
  | .removeNamespace => do
    let (removed, s) ← s.removeNamespace (← receive RemoveNamespace.codec params)
    return (.bool removed, s)
  | .getVolumeStats => do
    let report ← s.volumeStats (← receive VolumeRef.codec params)
    return (VolumeReport.codec.encode report, s)
  | .setLimits => do
    return granting (← s.setLimits (← receive VolumeLimits.codec params))
  | .createBlkController => do
    return granting (← s.createBlkController (← receive CreateBlkController.codec params))
  | .createScsiController => do
    return granting (← s.createScsiController (← receive VhostRef.codec params))
  | .deleteVhostController => do
    return granting (← s.deleteVhost (← receive VhostRef.codec params))
  | .getVhostControllers => do
    let rows ← s.vhostControllers (← receive VhostQuery.codec (params.or (some (.obj []))))
    return (VhostRow.codec.list.encode rows, s)
  | .addTarget => do
    let (n, s) ← s.addTarget (← receive AddTarget.codec params)
    return (.ofInt n.toInt, s)
  | .removeTarget => do
    let (removed, s) ← s.removeTarget (← receive RemoveTarget.codec params)
    return (.bool removed, s)

/-- Answers a call. -/
def answer (s : Simulation) (call : Call) : Answer × Simulation :=
  match s.respond call.params call.method with
  | .ok (v, s) => (.ok v, s)
  | .error fault => (.error fault, s)

end Simulation

end StorageControl.Engine
