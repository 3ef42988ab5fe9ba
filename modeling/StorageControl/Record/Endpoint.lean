/-
# Where hosts find a controller

A controller is reached over a network fabric or as a function of a local PCI device. An endpoint
says where; the transport kind says over what.
-/
import StorageControl.Json.Codec

namespace StorageControl

open Codec (Fields)

/-! ## PCI functions -/

/-- A function of a PCI device behind a port. -/
structure PciFunction where
  physicalFunction : Int32 := 0
  virtualFunction : Int32 := 0
  portId : Int32 := 0
deriving DecidableEq, Repr, Inhabited

/-- PCI functions on the wire. -/
def PciFunction.codec : Codec PciFunction :=
  .record <| (Fields.of PciFunction PciFunction.mk)
    |>.required "physicalFunction" .int32 (·.physicalFunction)
    |>.defaulted "virtualFunction" .int32 (·.virtualFunction) 0
    |>.defaulted "portId" .int32 (·.portId) 0

/-! ## Network fabrics -/

/-- The families of network addresses. -/
inductive AddressFamily where
  | ipv4
  | ipv6
deriving DecidableEq, Repr, Inhabited

/-- The family as it is written. -/
def AddressFamily.word : AddressFamily → String
  | .ipv4 => "IPv4"
  | .ipv6 => "IPv6"

/-- The spellings of the families. -/
def AddressFamily.spellings : List (String × AddressFamily) :=
  [("IPv4", .ipv4), ("ipv4", .ipv4), ("IPv6", .ipv6), ("ipv6", .ipv6)]

/-- Address families on the wire. -/
def AddressFamily.codec : Codec AddressFamily :=
  .word AddressFamily.word AddressFamily.spellings

/-- An address and a service on a network fabric. -/
structure FabricAddress where
  traddr : String
  trsvcid : String
  adrfam : AddressFamily := .ipv4
deriving DecidableEq, Repr, Inhabited

/-- Fabric addresses on the wire. -/
def FabricAddress.codec : Codec FabricAddress :=
  .record <| (Fields.of FabricAddress FabricAddress.mk)
    |>.required "traddr" .text (·.traddr)
    |>.required "trsvcid" .text (·.trsvcid)
    |>.defaulted "adrfam" AddressFamily.codec (·.adrfam) .ipv4

/-! ## Endpoints -/

/-- Where a controller is found. -/
inductive Endpoint where
  | pcie (function : PciFunction)
  | fabrics (address : FabricAddress)
deriving DecidableEq, Repr

/-- An endpoint is an object whose only key says which kind it is. -/
def Endpoint.codec : Codec Endpoint where
  shape := .variant [("pcie", PciFunction.codec.shape), ("fabrics", FabricAddress.codec.shape)]
  encode
    | .pcie function => .obj [("pcie", PciFunction.codec.encode function)]
    | .fabrics address => .obj [("fabrics", FabricAddress.codec.encode address)]
  decode
    | .obj [(key, value)] =>
      if key = "pcie" then (PciFunction.codec.decode value).map .pcie
      else if key = "fabrics" then (FabricAddress.codec.decode value).map .fabrics
      else none
    | _ => none

/-- Over what a controller is attached. -/
inductive TransportKind where
  | tcp
  | rdma
  | pcie
deriving DecidableEq, Repr, Inhabited

namespace TransportKind

/-- The kind on the wire. -/
def word : TransportKind → String
  | .tcp => "tcp"
  | .rdma => "rdma"
  | .pcie => "pcie"

/-- The kind in messages and listener addresses. -/
def label : TransportKind → String
  | .tcp => "TCP"
  | .rdma => "RDMA"
  | .pcie => "PCIe"

/-- Every kind. -/
def all : List TransportKind := [.tcp, .rdma, .pcie]

/-- Transport kinds on the wire. -/
def codec : Codec TransportKind :=
  .word word (all.map fun k => (k.word, k))

end TransportKind

end StorageControl
