/-
# Limits on volumes

Limits are set on a volume by one call, which replaces the limits that were there. Setting every
limit to zero lifts them.
-/
import StorageControl.Engine.Row
import StorageControl.Engine.Script
import StorageControl.Record.Virtio

namespace StorageControl.Engine

/-! ## Checks -/

/-- The limits with their names on the wire. -/
def limitFields (l : Limits) : List (String × Int64) :=
  [("rwIopsKiops", l.rwIopsKiops), ("rwBandwidthMbs", l.rwBandwidthMbs),
   ("rdBandwidthMbs", l.rdBandwidthMbs), ("wrBandwidthMbs", l.wrBandwidthMbs)]

/-- No limit may be negative. -/
def checkLimits (volume : String) (l : Limits) : Except Rejection Unit :=
  match (limitFields l).find? fun f => decide (f.2 < 0) with
  | some (field, value) => .error (.negativeLimit field volume value)
  | none => .ok ()

/-! ## Calls -/

/-- How many operations per second one unit of a limit on them stands for. -/
def operationsPerUnit : Int64 := 1000

/-- The limits of a volume as the engine takes them. -/
def volumeLimits (volume : String) (l : Limits) : VolumeLimits where
  name := volume
  rwIosPerSec := l.rwIopsKiops * operationsPerUnit
  rwMbytesPerSec := l.rwBandwidthMbs
  rMbytesPerSec := l.rdBandwidthMbs
  wMbytesPerSec := l.wrBandwidthMbs

/-- Sets all limits of a volume. -/
def setLimits (limits : VolumeLimits) : Script Unit := do
  let granted ← Script.invoke .setLimits (VolumeLimits.codec.encode limits) .flag
  Script.confirm granted (.setLimits limits.name)

/-- Puts limits on a volume. -/
def applyLimits (volume : String) (l : Limits) : Script Unit := do
  Script.check (checkLimits volume l)
  setLimits (volumeLimits volume l)

/-- Lifts the limits of a volume. -/
def clearLimits (volume : String) : Script Unit :=
  setLimits { name := volume }

end StorageControl.Engine
