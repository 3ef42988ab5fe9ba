/-
# vhost controllers of virtio devices

A virtio device is served by a vhost controller that has the device's id.
-/
import StorageControl.Attach.Listener
import StorageControl.Record.Virtio

namespace StorageControl.Attach

/-- The short name of the transport of virtio devices. -/
def vhostLabel : String := "vhost-user"

/-- The vhost controller of a virtio-blk device. -/
def blkController (id : String) (d : VirtioBlk) :
    Except Rejection Engine.CreateBlkController := do
  checkLocalFunction d.pcieId
  if d.volumeNameRef.isEmpty then .error (.deviceWithoutVolume id)
  else .ok { ctrlr := id, devName := d.volumeNameRef }

/-- The vhost controller of a SCSI controller. -/
def scsiController (id : String) (c : ScsiController) : Except Rejection Engine.VhostRef := do
  checkLocalFunction c.pcieId
  .ok { ctrlr := id }

/-- The vhost controller of the device with an id. -/
def vhostRef (id : String) : Engine.VhostRef := { ctrlr := id }

end StorageControl.Attach
