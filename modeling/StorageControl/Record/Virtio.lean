/-
# Virtio devices

A virtio-blk device gives a host one volume, possibly with limits on its rate. A SCSI controller
gives it a bus, and each of its LUNs a volume on that bus.
-/
import StorageControl.Record.Endpoint

namespace StorageControl

open Codec (Fields)

/-! ## Limits -/

/-- Limits on the rate of a volume; zero sets none. -/
structure Limits where
  rwIopsKiops : Int64 := 0
  rwBandwidthMbs : Int64 := 0
  rdBandwidthMbs : Int64 := 0
  wrBandwidthMbs : Int64 := 0
deriving DecidableEq, Repr, Inhabited

/-- Limits on the wire. -/
def Limits.codec : Codec Limits :=
  .record <| (Fields.of Limits Limits.mk)
    |>.defaulted "rwIopsKiops" .int64 (·.rwIopsKiops) 0
    |>.defaulted "rwBandwidthMbs" .int64 (·.rwBandwidthMbs) 0
    |>.defaulted "rdBandwidthMbs" .int64 (·.rdBandwidthMbs) 0
    |>.defaulted "wrBandwidthMbs" .int64 (·.wrBandwidthMbs) 0

/-- None of the limits is set. -/
def Limits.isUnlimited (l : Limits) : Bool :=
  l.rwIopsKiops == 0 && l.rwBandwidthMbs == 0 && l.rdBandwidthMbs == 0 && l.wrBandwidthMbs == 0

/-! ## virtio-blk -/

/-- A virtio-blk device. -/
structure VirtioBlk where
  name : String := ""
  pcieId : PciFunction := {}
  volumeNameRef : String := ""
  maxIoQps : Int64 := 0
  maxLimit : Option Limits := none
deriving DecidableEq, Repr, Inhabited

/-- virtio-blk devices on the wire. -/
def VirtioBlk.codec : Codec VirtioBlk :=
  .record <| (Fields.of VirtioBlk VirtioBlk.mk)
    |>.defaulted "name" .text (·.name) ""
    |>.defaulted "pcieId" PciFunction.codec (·.pcieId) {}
    |>.required "volumeNameRef" .text (·.volumeNameRef)
    |>.defaulted "maxIoQps" .int64 (·.maxIoQps) 0
    |>.nullable "maxLimit" Limits.codec (·.maxLimit)

/-- The limits of a device, when at least one of them is set. -/
def VirtioBlk.limits? (d : VirtioBlk) : Option Limits :=
  d.maxLimit.filter fun l => !l.isUnlimited

/-! ## virtio-scsi -/

/-- A SCSI controller. -/
structure ScsiController where
  name : String := ""
  pcieId : PciFunction := {}
  maxLuns : Int32 := 0
deriving DecidableEq, Repr, Inhabited

/-- SCSI controllers on the wire. -/
def ScsiController.codec : Codec ScsiController :=
  .record <| (Fields.of ScsiController ScsiController.mk)
    |>.defaulted "name" .text (·.name) ""
    |>.defaulted "pcieId" PciFunction.codec (·.pcieId) {}
    |>.defaulted "maxLuns" .int32 (·.maxLuns) 0

/-- A SCSI LUN. -/
structure ScsiLun where
  name : String := ""
  controllerNameRef : String := ""
  volumeNameRef : String := ""
  targetNum : Int32 := 0
deriving DecidableEq, Repr, Inhabited

/-- The target number of a caller who leaves the choice to the engine. -/
def ScsiLun.unassigned : Int32 := -1

/-- SCSI LUNs on the wire. -/
def ScsiLun.codec : Codec ScsiLun :=
  .record <| (Fields.of ScsiLun ScsiLun.mk)
    |>.defaulted "name" .text (·.name) ""
    |>.defaulted "controllerNameRef" .text (·.controllerNameRef) ""
    |>.required "volumeNameRef" .text (·.volumeNameRef)
    |>.defaulted "targetNum" .int32 (·.targetNum) ScsiLun.unassigned

end StorageControl
