/-
# The NVMe families

A subsystem is one of the engine's. A controller is a listener on its subsystem, and a namespace a
volume attached to it; both need their subsystem's record to be talked about with the engine.
-/
import StorageControl.Attach.Listener
import StorageControl.Inventory.Family

namespace StorageControl

open Engine (Script)

/-! ## Subsystems -/

namespace Subsystems

/-- The qualified names of a new subsystem must be well formed. -/
def accept (s : Subsystem) : Except Rejection Unit := do
  Check.nqn s.spec.nqn
  match s.spec.hostnqn with
  | none => .ok ()
  | some host => Check.nqn host

/-- No record may have the qualified name already. -/
def checkUnowned (inv : Inventory) (nqn : String) : Except Rejection Unit :=
  match inv.subsystems.values.find? (·.spec.nqn == nqn) with
  | some owner => .error (.nqnTaken nqn owner.name)
  | none => .ok ()

/-- A subsystem as the engine is to make it. Without a host name every host may connect. -/
def creation (spec : SubsystemSpec) : Engine.CreateSubsystem where
  nqn := spec.nqn
  serialNumber := spec.serialNumber
  modelNumber := spec.modelNumber
  allowAnyHost := spec.hostnqn.isNone
  maxNamespaces := spec.maxNamespaces

/-- Lets the host of a subsystem connect, if it has one. -/
def addHost (spec : SubsystemSpec) : Script Unit :=
  match spec.hostnqn with
  | none => .done ()
  | some host => do
    let params : Engine.AddHost := { nqn := spec.nqn, host, psk := spec.psk }
    let granted ← Script.invoke .addHost (Engine.AddHost.codec.encode params) .flag
    Script.confirm granted (.addHost host spec.nqn)

/-- What is left to do when the engine has made a subsystem. -/
def finish (spec : SubsystemSpec) : Script Engine.Version := do
  addHost spec
  Engine.version

/-- Asks the engine to delete a subsystem. -/
def remove (nqn : String) : Script Bool :=
  Script.invoke .deleteSubsystem (Engine.SubsystemRef.codec.encode ⟨nqn⟩) .flag

/-- Makes a subsystem. If it cannot be finished it is deleted again, and whatever comes of that,
the first fault counts. -/
def make (inv : Inventory) (place : Place) (s : Subsystem) : Script Subsystem := do
  Script.check (checkUnowned inv s.spec.nqn)
  let granted ← Script.invoke .createSubsystem
    (Engine.CreateSubsystem.codec.encode (creation s.spec)) .flag
  Script.confirm granted (.createSubsystem s.spec.nqn)
  match ← (finish s.spec).attempt with
  | .ok version =>
    return { s with name := place.name, status := some ⟨version.version⟩ }
  | .error fault => do
    let _ ← (remove s.spec.nqn).attempt
    Script.failed fault

/-- The specification of a subsystem with what the engine lists in its row. -/
def withRow (spec : SubsystemSpec) (row : Engine.SubsystemRow) : SubsystemSpec :=
  { spec with
    serialNumber := row.serialNumber
    modelNumber := row.modelNumber
    maxNamespaces := row.maxNamespaces }

/-- Looks a subsystem up in the engine's listing. -/
def refresh (s : Subsystem) : Script Subsystem := do
  let rows ← Engine.subsystems
  let row ← Script.demand (.unlisted (.subsystem s.spec.nqn)) (Engine.rowOf? s.spec.nqn rows)
  return { s with spec := withRow s.spec row }

/-- The record for a row of the engine's listing. A subsystem that is not kept is named after its
qualified name. -/
def ofRow (inv : Inventory) (row : Engine.SubsystemRow) : Subsystem :=
  match inv.subsystems.values.find? (·.spec.nqn == row.nqn) with
  | some kept => { kept with spec := withRow kept.spec row }
  | none =>
    { name := Name.compose .subsystem "" row.nqn
      spec := withRow { nqn := row.nqn } row }

/-- Every subsystem that the engine lists, its own ones aside. -/
def items (inv : Inventory) : Script (List Subsystem) := do
  let rows ← Engine.subsystems
  return (rows.filter fun row => !row.isDiscovery).map (ofRow inv)

/-- Deletes a subsystem. -/
def release (s : Subsystem) : Script Unit := do
  let granted ← remove s.spec.nqn
  Script.confirm granted (.deleteSubsystem s.spec.nqn)

/-- The engine is asked for its counters, but has none for one subsystem. -/
def counters (_ : Subsystem) : Script VolumeStats := do
  let _ ← Script.invokeBare .getTargetStats Engine.TargetStats.codec
  return VolumeStats.unavailable

/-- The family of subsystems. -/
def family : Family Subsystem where
  accept := accept
  make := make
  refresh _ _ s := refresh s
  items inv _ := items inv
  release _ _ s := release s
  counters := .ok counters

end Subsystems

/-! ## Controllers -/

namespace Controllers

variable (registry : Attach.Registry)

/-- Makes the listener of a controller. -/
def make (inv : Inventory) (place : Place) (c : Controller) : Script Controller := do
  let s ← inv.demand .subsystem place.parent
  let c := { c with name := place.name, spec.subsystemNameRef := place.parent }
  let listener ← Script.check (registry.listener c s)
  let granted ← Script.invoke .addListener (Engine.Listener.codec.encode listener) .flag
  Script.confirm granted (.createController place.name)
  return { c with status := some ⟨true⟩ }

/-- The engine listens at an address for the hosts of a subsystem. -/
def isActive (address : Engine.ListenAddress) (row : Engine.SubsystemRow) : Bool :=
  row.listenAddresses.any (·.sameEndpoint address)

/-- Looks the listener of a controller up in the row of its subsystem. -/
def refresh (inv : Inventory) (name : String) (c : Controller) : Script Controller := do
  let s ← inv.demand .subsystem c.spec.subsystemNameRef
  let listener ← Script.check (registry.listener c s)
  let rows ← Engine.subsystems
  if (Engine.rowOf? s.spec.nqn rows).any (isActive listener.listenAddress) then
    return { c with status := some ⟨true⟩ }
  else Script.failed (.unlisted (.controller name))

/-- A controller with what the row of its subsystem says of it. -/
def withRow (s : Subsystem) (row : Engine.SubsystemRow) (c : Controller) :
    Except Rejection Controller := do
  let listener ← registry.listener c s
  .ok { c with status := some ⟨isActive listener.listenAddress row⟩ }

/-- The controllers of a subsystem that are kept. -/
def items (inv : Inventory) (parent : String) : Script (List Controller) := do
  let s ← inv.demand .subsystem parent
  let rows ← Engine.subsystems
  let row ← Script.demand (.unlisted (.controllersOf s.spec.nqn)) (Engine.rowOf? s.spec.nqn rows)
  let children := inv.controllers.values.filter (·.spec.subsystemNameRef == parent)
  Script.check (children.mapM (withRow registry s row))

/-- Removes the listener of a controller. -/
def release (inv : Inventory) (name : String) (c : Controller) : Script Unit := do
  let s ← inv.demand .subsystem c.spec.subsystemNameRef
  let listener ← Script.check (registry.listener c s)
  let granted ← Script.invoke .removeListener (Engine.Listener.codec.encode listener) .flag
  Script.confirm granted (.deleteController name)

/-- The family of controllers. A single controller has no counters. -/
def family : Family Controller where
  reference c := c.spec.subsystemNameRef
  make := make registry
  refresh := refresh registry
  items := items registry
  release := release registry
  counters := .ok fun _ => .done VolumeStats.unavailable

end Controllers

/-! ## Namespaces -/

namespace Namespaces

/-- A new namespace must name a volume, and must not ask for a negative number. -/
def accept (n : NvmeNamespace) : Except Rejection Unit := do
  Check.required "spec.volumeNameRef" n.spec.volumeNameRef
  if n.spec.hostNsid < 0 then .error (.negativeNsid n.spec.hostNsid) else .ok ()

/-- The volume of a namespace as it is to be attached to a subsystem. -/
def attachment (nqn : String) (spec : NvmeNamespaceSpec) : Engine.AddNamespace where
  nqn := nqn
  params :=
    { nsid := if spec.hostNsid > 0 then some spec.hostNsid else none
      bdevName := spec.volumeNameRef
      uuid := spec.uuid
      nguid := spec.nguid
      eui64 := spec.eui64 }

/-- Attaches the volume of a namespace. The number that the engine answers is the namespace's. -/
def make (inv : Inventory) (place : Place) (n : NvmeNamespace) : Script NvmeNamespace := do
  let s ← inv.demand .subsystem place.parent
  let nsid ← Script.invoke .addNamespace
    (Engine.AddNamespace.codec.encode (attachment s.spec.nqn n.spec)) .int32
  Script.confirm (decide (nsid > 0)) (.createNamespace place.name)
  return { n with
    name := place.name
    spec.subsystemNameRef := place.parent
    spec.hostNsid := nsid
    status := some ⟨.enabled⟩ }

/-- The specification of a namespace with what the engine lists in its row. -/
def withRow (spec : NvmeNamespaceSpec) (row : Engine.NamespaceRow) : NvmeNamespaceSpec :=
  { spec with
    volumeNameRef := row.bdevName
    uuid := row.uuid.or spec.uuid
    nguid := row.nguid.or spec.nguid
    eui64 := row.eui64.or spec.eui64 }

/-- Looks a namespace up in the row of its subsystem. -/
def refresh (inv : Inventory) (n : NvmeNamespace) : Script NvmeNamespace := do
  let s ← inv.demand .subsystem n.spec.subsystemNameRef
  let rows ← Engine.subsystems
  let row ← Script.demand (.unlisted (.subsystem s.spec.nqn)) (Engine.rowOf? s.spec.nqn rows)
  let found ← Script.demand (.unlisted (.nvmeNamespace n.spec.hostNsid))
    (row.namespaces.find? (·.nsid == n.spec.hostNsid))
  return { n with spec := withRow n.spec found, status := some ⟨.enabled⟩ }

/-- The record for a namespace that the engine lists. One that is not kept is named after its
number. -/
def ofRow (known : List NvmeNamespace) (parent : String) (row : Engine.NamespaceRow) :
    NvmeNamespace where
  name :=
    match known.find? (·.spec.hostNsid == row.nsid) with
    | some kept => kept.name
    | none =>
      Name.compose .nvmeNamespace (Place.parentId .nvmeNamespace parent) (toString row.nsid.toInt)
  spec := withRow { subsystemNameRef := parent, hostNsid := row.nsid } row
  status := some ⟨.enabled⟩

/-- Every namespace that the engine lists for a subsystem. -/
def items (inv : Inventory) (parent : String) : Script (List NvmeNamespace) := do
  let s ← inv.demand .subsystem parent
  let rows ← Engine.subsystems
  let row ← Script.demand (.unlisted (.namespacesOf s.spec.nqn)) (Engine.rowOf? s.spec.nqn rows)
  let known := inv.namespaces.values.filter (·.spec.subsystemNameRef == parent)
  return row.namespaces.map (ofRow known parent)

/-- Detaches the volume of a namespace. -/
def release (inv : Inventory) (name : String) (n : NvmeNamespace) : Script Unit := do
  let s ← inv.demand .subsystem n.spec.subsystemNameRef
  let params : Engine.RemoveNamespace := { nqn := s.spec.nqn, nsid := n.spec.hostNsid }
  let granted ← Script.invoke .removeNamespace (Engine.RemoveNamespace.codec.encode params) .flag
  Script.confirm granted (.deleteNamespace name)

/-- The family of namespaces. -/
def family : Family NvmeNamespace where
  reference n := n.spec.subsystemNameRef
  accept := accept
  make := make
  refresh inv _ n := refresh inv n
  items := items
  release := release
  counters := .ok fun n => Engine.volumeStats n.spec.volumeNameRef

end Namespaces

end StorageControl
