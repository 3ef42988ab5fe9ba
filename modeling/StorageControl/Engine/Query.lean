/-
# Questions to the engine

What several operations ask the engine: its version, what it lists, and the counters of a volume.
-/
import StorageControl.Engine.Row
import StorageControl.Engine.Script
import StorageControl.Record.Stats

namespace StorageControl.Engine

/-- The version of the engine. -/
def version : Script Version :=
  Script.invokeBare .getVersion Version.codec

/-- Every subsystem that the engine lists. -/
def subsystems : Script (List SubsystemRow) :=
  Script.invokeBare .getSubsystems SubsystemRow.codec.list

/-- The first row of a listing with the given qualified name. -/
def rowOf? (nqn : String) (rows : List SubsystemRow) : Option SubsystemRow :=
  rows.find? (·.nqn == nqn)

/-- Every vhost controller that the engine lists, or the one with the given id. -/
def vhostControllers (id : Option String) : Script (List VhostRow) :=
  Script.invoke .getVhostControllers (VhostQuery.codec.encode { name := id }) VhostRow.codec.list

/-- The backend of the first vhost controller of a listing with the given id. -/
def backendOf? (id : String) (rows : List VhostRow) : Option Backend :=
  (rows.find? (·.ctrlr == id)).map (·.backend)

/-- The targets of a vhost controller, if it has a SCSI bus. -/
def scsiTargets (id : String) : Script (Option (List TargetRow)) := do
  let rows ← vhostControllers (some id)
  return (backendOf? id rows).bind (·.scsi)

/-- The counters in a row. -/
def VolumeRow.stats (row : VolumeRow) : VolumeStats where
  readBytesCount := row.bytesRead
  readOpsCount := row.numReadOps
  writeBytesCount := row.bytesWritten
  writeOpsCount := row.numWriteOps
  readLatencyTicks := row.readLatencyTicks
  writeLatencyTicks := row.writeLatencyTicks

/-- The counters of a volume. -/
def volumeStats (volume : String) : Script VolumeStats := do
  let report ← Script.invoke .getVolumeStats (VolumeRef.codec.encode ⟨volume⟩) VolumeReport.codec
  let row ← Script.demand (.unlisted (.statsOf volume)) (report.bdevs.find? (·.name == volume))
  return row.stats

end StorageControl.Engine
