/-
# The virtio families

A virtio-blk device and a SCSI controller are vhost controllers of the engine, with the device's id.
A LUN is a target on its controller's bus, and the engine chooses its number unless the caller
does.
-/
import StorageControl.Attach.Vhost
import StorageControl.Engine.Limits
import StorageControl.Inventory.Family

namespace StorageControl

open Engine (Script)

/-! ## virtio-blk devices -/

namespace VirtioBlks

/-- A new device must name a volume. -/
def accept (d : VirtioBlk) : Except Rejection Unit :=
  Check.required "volumeNameRef" d.volumeNameRef

/-- Puts limits on the volume of a device, if it has any. -/
def limit (d : VirtioBlk) : Script Unit :=
  match d.limits? with
  | some limits => Engine.applyLimits d.volumeNameRef limits
  | none => .done ()

/-- Lifts the limits of a device from its volume, if it has any. Whether that works does not
matter. -/
def unlimit (d : VirtioBlk) : Script Unit :=
  match d.limits? with
  | some _ => do
    let _ ← (Engine.clearLimits d.volumeNameRef).attempt
  | none => .done ()

/-- Makes the vhost controller of a device. -/
def attach (name : String) (params : Engine.CreateBlkController) : Script Unit := do
  let granted ← Script.invoke .createBlkController
    (Engine.CreateBlkController.codec.encode params) .flag
  Script.confirm granted (.createVirtioBlk name)

/-- Puts limits on the volume of a device and makes its vhost controller. If that fails the limits
are lifted again, and whatever comes of that, the first fault counts. -/
def make (place : Place) (d : VirtioBlk) : Script VirtioBlk := do
  let params ← Script.check (Attach.blkController place.id d)
  limit d
  match ← (attach place.name params).attempt with
  | .ok () => return { d with name := place.name }
  | .error fault => do
    unlimit d
    Script.failed fault

/-- Looks the vhost controller of a device up. -/
def refresh (name : String) (d : VirtioBlk) : Script VirtioBlk := do
  let id := Name.ownId name
  let rows ← Engine.vhostControllers (some id)
  let block ← Script.demand (.unlisted (.virtioBlk name))
    ((Engine.backendOf? id rows).bind (·.block))
  return { d with volumeNameRef := block.bdev }

/-- The record for a vhost controller that the engine lists, if it has a volume. -/
def ofRow (inv : Inventory) (row : Engine.VhostRow) : Option VirtioBlk :=
  row.backend.block.map fun block =>
    let name := Name.compose .virtioBlk "" row.ctrlr
    let kept := (inv.virtioBlks.find? name).getD {}
    { kept with name, volumeNameRef := block.bdev }

/-- Every vhost controller with a volume. -/
def items (inv : Inventory) : Script (List VirtioBlk) := do
  let rows ← Engine.vhostControllers none
  return rows.filterMap (ofRow inv)

/-- Deletes the vhost controller of a device. -/
def release (name : String) : Script Unit := do
  let params := Attach.vhostRef (Name.ownId name)
  let granted ← Script.invoke .deleteVhostController (Engine.VhostRef.codec.encode params) .flag
  Script.confirm granted (.deleteVirtioBlk name)

/-- The family of virtio-blk devices. The limits of a device are lifted once it is dropped. -/
def family : Family VirtioBlk where
  accept := accept
  make _ := make
  refresh _ := refresh
  items inv _ := items inv
  release _ name _ := release name
  tidy := unlimit
  counters := .ok fun d => Engine.volumeStats d.volumeNameRef

end VirtioBlks

/-! ## SCSI controllers -/

namespace ScsiControllers

/-- A new controller must not have a negative number of LUNs. -/
def accept (c : ScsiController) : Except Rejection Unit :=
  if c.maxLuns < 0 then .error (.negativeMaxLuns c.maxLuns) else .ok ()

/-- Makes the vhost controller of a SCSI controller. -/
def make (place : Place) (c : ScsiController) : Script ScsiController := do
  let params ← Script.check (Attach.scsiController place.id c)
  let granted ← Script.invoke .createScsiController (Engine.VhostRef.codec.encode params) .flag
  Script.confirm granted (.createScsiController place.name)
  return { c with name := place.name }

/-- Looks the bus of a controller up. -/
def refresh (name : String) (c : ScsiController) : Script ScsiController := do
  let targets ← Engine.scsiTargets (Name.ownId name)
  let _ ← Script.demand (.unlisted (.scsiController name)) targets
  return c

/-- The record for a vhost controller that the engine lists, if it has a SCSI bus. -/
def ofRow (inv : Inventory) (row : Engine.VhostRow) : Option ScsiController :=
  row.backend.scsi.map fun _ =>
    let name := Name.compose .scsiController "" row.ctrlr
    let kept := (inv.scsiControllers.find? name).getD {}
    { kept with name }

/-- Every vhost controller with a SCSI bus. -/
def items (inv : Inventory) : Script (List ScsiController) := do
  let rows ← Engine.vhostControllers none
  return rows.filterMap (ofRow inv)

/-- Deletes the vhost controller of a SCSI controller. -/
def release (name : String) : Script Unit := do
  let params := Attach.vhostRef (Name.ownId name)
  let granted ← Script.invoke .deleteVhostController (Engine.VhostRef.codec.encode params) .flag
  Script.confirm granted (.deleteScsiController name)

/-- The family of SCSI controllers. -/
def family : Family ScsiController where
  accept := accept
  make _ := make
  refresh _ := refresh
  items inv _ := items inv
  release _ name _ := release name
  counters := .error .statsOfScsiController

end ScsiControllers

/-! ## LUNs -/

namespace ScsiLuns

/-- A new LUN must name a volume. -/
def accept (l : ScsiLun) : Except Rejection Unit :=
  Check.required "volumeNameRef" l.volumeNameRef

/-- Adds the volume of a LUN to its controller's bus. The number that the engine answers is the
LUN's. -/
def make (inv : Inventory) (place : Place) (l : ScsiLun) : Script ScsiLun := do
  let _ ← inv.demand .scsiController place.parent
  let params : Engine.AddTarget :=
    { ctrlr := Name.ownId place.parent
      scsiTargetNum := l.targetNum
      bdevName := l.volumeNameRef }
  let target ← Script.invoke .addTarget (Engine.AddTarget.codec.encode params) .int32
  Script.confirm (decide (target ≥ 0)) (.createScsiLun place.name)
  return { l with name := place.name, controllerNameRef := place.parent, targetNum := target }

/-- The volume of the first unit of a target. -/
def volumeOf? (target : Engine.TargetRow) : Option String :=
  target.luns.head?.map (·.bdevName)

/-- Looks the target of a LUN up. -/
def refresh (inv : Inventory) (name : String) (l : ScsiLun) : Script ScsiLun := do
  let _ ← inv.demand .scsiController l.controllerNameRef
  let targets ← Engine.scsiTargets (Name.ownId l.controllerNameRef)
  let target ← Script.demand (.unlisted (.scsiLun name))
    (targets.bind fun rows => rows.find? (·.scsiDevNum == l.targetNum))
  return { l with volumeNameRef := (volumeOf? target).getD l.volumeNameRef }

/-- The record for a target that the engine lists. One that is not kept is named after its
number. -/
def ofRow (known : List ScsiLun) (parent : String) (target : Engine.TargetRow) : ScsiLun where
  name :=
    match known.find? (·.targetNum == target.scsiDevNum) with
    | some kept => kept.name
    | none => Name.compose .scsiLun (Name.ownId parent) (toString target.scsiDevNum.toInt)
  controllerNameRef := parent
  volumeNameRef := (volumeOf? target).getD ""
  targetNum := target.scsiDevNum

/-- Every target that the engine lists for a controller. -/
def items (inv : Inventory) (parent : String) : Script (List ScsiLun) := do
  let _ ← inv.demand .scsiController parent
  let listed ← Engine.scsiTargets (Name.ownId parent)
  let targets ← Script.demand (.unlisted (.scsiLunsOf parent)) listed
  let known := inv.scsiLuns.values.filter (·.controllerNameRef == parent)
  return targets.map (ofRow known parent)

/-- Removes the target of a LUN from its controller's bus. -/
def release (inv : Inventory) (name : String) (l : ScsiLun) : Script Unit := do
  let _ ← inv.demand .scsiController l.controllerNameRef
  let params : Engine.RemoveTarget :=
    { ctrlr := Name.ownId l.controllerNameRef, scsiTargetNum := l.targetNum }
  let granted ← Script.invoke .removeTarget (Engine.RemoveTarget.codec.encode params) .flag
  Script.confirm granted (.deleteScsiLun name)

/-- The family of LUNs. -/
def family : Family ScsiLun where
  reference l := l.controllerNameRef
  accept := accept
  make := make
  refresh := refresh
  items := items
  release := release
  updateUnsupported := some .updateOfScsiLun
  counters := .error .statsOfScsiLun

end ScsiLuns

end StorageControl
