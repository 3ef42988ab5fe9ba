/-
# Transport settings

Where controllers are attached that name no endpoint of their own: a listener for the network
fabrics, and a base directory for the sockets of emulated PCI devices.
-/
import StorageControl.Record.Endpoint

namespace StorageControl.Config

open Codec (Fields)

/-- The listener of controllers without endpoint. -/
structure FabricListener where
  listenAddr : String := "127.0.0.1"
  listenPort : String := "4420"
  adrfam : AddressFamily := .ipv4
deriving DecidableEq, Repr, Inhabited

/-- Fabric listeners on the wire. -/
def FabricListener.codec : Codec FabricListener :=
  .record <| (Fields.of FabricListener FabricListener.mk)
    |>.defaulted "listenAddr" .text (·.listenAddr) "127.0.0.1"
    |>.defaulted "listenPort" .text (·.listenPort) "4420"
    |>.defaulted "adrfam" AddressFamily.codec (·.adrfam) .ipv4

/-- The directory that holds one socket directory per emulated controller. -/
structure SocketBase where
  ctrlrDir : String := "/var/tmp"
deriving DecidableEq, Repr, Inhabited

/-- Socket bases on the wire. -/
def SocketBase.codec : Codec SocketBase :=
  .record <| (Fields.of SocketBase SocketBase.mk)
    |>.defaulted "ctrlrDir" .text (·.ctrlrDir) "/var/tmp"

/-- The settings of all transports. -/
structure Transport where
  tcp : FabricListener := {}
  vfioUser : SocketBase := {}
deriving DecidableEq, Repr, Inhabited

/-- Transport settings on the wire. -/
def Transport.codec : Codec Transport :=
  .record <| (Fields.of Transport Transport.mk)
    |>.defaulted "tcp" FabricListener.codec (·.tcp) {}
    |>.defaulted "vfioUser" SocketBase.codec (·.vfioUser) {}

end StorageControl.Config
