/-
# Counters of volumes

What a volume has read and written so far, and in how many ticks.
-/
import StorageControl.Json.Codec

namespace StorageControl

open Codec (Fields)

/-- The counters of a volume. -/
structure VolumeStats where
  readBytesCount : Int64
  readOpsCount : Int64
  writeBytesCount : Int64
  writeOpsCount : Int64
  readLatencyTicks : Int64
  writeLatencyTicks : Int64
deriving DecidableEq, Repr, Inhabited

/-- Counters on the wire. -/
def VolumeStats.codec : Codec VolumeStats :=
  .record <| (Fields.of VolumeStats VolumeStats.mk)
    |>.required "readBytesCount" .int64 (·.readBytesCount)
    |>.required "readOpsCount" .int64 (·.readOpsCount)
    |>.required "writeBytesCount" .int64 (·.writeBytesCount)
    |>.required "writeOpsCount" .int64 (·.writeOpsCount)
    |>.required "readLatencyTicks" .int64 (·.readLatencyTicks)
    |>.required "writeLatencyTicks" .int64 (·.writeLatencyTicks)

/-- The counters of what has none: all minus one. -/
def VolumeStats.unavailable : VolumeStats := ⟨-1, -1, -1, -1, -1, -1⟩

/-- The counters of a named resource. -/
structure ResourceStats where
  name : String
  stats : VolumeStats
deriving DecidableEq, Repr, Inhabited

/-- Counters of a resource on the wire. -/
def ResourceStats.codec : Codec ResourceStats :=
  .record <| (Fields.of ResourceStats ResourceStats.mk)
    |>.required "name" .text (·.name)
    |>.required "stats" VolumeStats.codec (·.stats)

end StorageControl
