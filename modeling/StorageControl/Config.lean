/-
# Configuration

How the engine is reached, where controllers are attached, and where callers are served.
-/
import StorageControl.Config.SocketAddress
import StorageControl.Config.Transport
import StorageControl.Fault
import StorageControl.Text.Blank

namespace StorageControl

open Codec (Fields)

/-! ## Parts -/

namespace Config

/-- How the engine is reached, and how long its answers may be. -/
structure EngineLink where
  address : String := "/var/tmp/spdk.sock"
  maxResponseBytes : UInt64 := 16777216
deriving DecidableEq, Repr, Inhabited

/-- Engine links on the wire. -/
def EngineLink.codec : Codec EngineLink :=
  .record <| (Fields.of EngineLink EngineLink.mk)
    |>.defaulted "address" .text (·.address) "/var/tmp/spdk.sock"
    |>.defaulted "maxResponseBytes" .uint64 (·.maxResponseBytes) 16777216

/-- Where callers are served. -/
structure Api where
  restAddr : String := "0.0.0.0:8090"
deriving DecidableEq, Repr, Inhabited

/-- Server settings on the wire. -/
def Api.codec : Codec Api :=
  .record <| (Fields.of Api Api.mk)
    |>.defaulted "restAddr" .text (·.restAddr) "0.0.0.0:8090"

/-- The address of the server. -/
def Api.socketAddress (api : Api) : Except ConfigFault SocketAddress :=
  match SocketAddress.parse? api.restAddr with
  | some address => .ok address
  | none => .error .malformedRestAddress

end Config

/-! ## The whole -/

/-- A configuration. -/
structure Config where
  engine : Config.EngineLink := {}
  transport : Config.Transport := {}
  api : Config.Api := {}
deriving DecidableEq, Repr, Inhabited

namespace Config

/-- Configurations on the wire. -/
def codec : Codec Config :=
  .record <| (Fields.of Config Config.mk)
    |>.defaulted "engine" EngineLink.codec (·.engine) {}
    |>.defaulted "transport" Transport.codec (·.transport) {}
    |>.defaulted "api" Api.codec (·.api) {}

/-- A configuration must say where the engine is, let it answer, and name an address to serve
at. -/
def check (c : Config) : Except ConfigFault Unit :=
  if Text.isBlankText c.engine.address then .error .emptyEngineAddress
  else if c.engine.maxResponseBytes = 0 then .error .zeroResponseBound
  else c.api.socketAddress.map fun _ => ()

end Config

end StorageControl
