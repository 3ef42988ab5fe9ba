/-
# NVMe subsystems, controllers and namespaces

A subsystem is known to hosts by its qualified name. Controllers attach hosts to it and namespaces
give them its volumes. A record holds what the caller asked for in its `spec` and what the engine
reported in its `status`.
-/
import StorageControl.Record.Endpoint

namespace StorageControl

open Codec (Fields)

/-! ## Subsystems -/

/-- What is asked of a subsystem. With a host name only that host may connect, and with a key it
connects over secure channels. -/
structure SubsystemSpec where
  nqn : String := ""
  serialNumber : String := ""
  modelNumber : String := ""
  maxNamespaces : Int64 := 0
  hostnqn : Option String := none
  psk : Option String := none
deriving DecidableEq, Repr, Inhabited

/-- Subsystem specifications on the wire. -/
def SubsystemSpec.codec : Codec SubsystemSpec :=
  .record <| (Fields.of SubsystemSpec SubsystemSpec.mk)
    |>.required "nqn" .text (·.nqn)
    |>.defaulted "serialNumber" .text (·.serialNumber) ""
    |>.defaulted "modelNumber" .text (·.modelNumber) ""
    |>.defaulted "maxNamespaces" .int64 (·.maxNamespaces) 0
    |>.nullable "hostnqn" .text (·.hostnqn)
    |>.nullable "psk" .text (·.psk)

/-- The version that the engine reported when it created the subsystem. -/
structure SubsystemStatus where
  firmwareRevision : String := ""
deriving DecidableEq, Repr, Inhabited

/-- Subsystem states on the wire. -/
def SubsystemStatus.codec : Codec SubsystemStatus :=
  .record <| (Fields.of SubsystemStatus SubsystemStatus.mk)
    |>.required "firmwareRevision" .text (·.firmwareRevision)

/-- A subsystem. -/
structure Subsystem where
  name : String := ""
  spec : SubsystemSpec := {}
  status : Option SubsystemStatus := none
deriving DecidableEq, Repr, Inhabited

/-- Subsystems on the wire. -/
def Subsystem.codec : Codec Subsystem :=
  .record <| (Fields.of Subsystem Subsystem.mk)
    |>.defaulted "name" .text (·.name) ""
    |>.required "spec" SubsystemSpec.codec (·.spec)
    |>.nullable "status" SubsystemStatus.codec (·.status)

/-! ## Controllers -/

/-- What is asked of a controller. Its id is negative while none is assigned. -/
structure ControllerSpec where
  subsystemNameRef : String := ""
  nvmeControllerId : Int32 := -1
  trtype : TransportKind := .tcp
  endpoint : Option Endpoint := none
  maxNsq : Int32 := 0
  maxNcq : Int32 := 0
deriving DecidableEq, Repr, Inhabited

/-- Controller specifications on the wire. -/
def ControllerSpec.codec : Codec ControllerSpec :=
  .record <| (Fields.of ControllerSpec ControllerSpec.mk)
    |>.defaulted "subsystemNameRef" .text (·.subsystemNameRef) ""
    |>.defaulted "nvmeControllerId" .int32 (·.nvmeControllerId) (-1)
    |>.defaulted "trtype" TransportKind.codec (·.trtype) .tcp
    |>.nullable "endpoint" Endpoint.codec (·.endpoint)
    |>.defaulted "maxNsq" .int32 (·.maxNsq) 0
    |>.defaulted "maxNcq" .int32 (·.maxNcq) 0

/-- Whether the engine listens for the controller's hosts. -/
structure ControllerStatus where
  active : Bool := false
deriving DecidableEq, Repr, Inhabited

/-- Controller states on the wire. -/
def ControllerStatus.codec : Codec ControllerStatus :=
  .record <| (Fields.of ControllerStatus ControllerStatus.mk)
    |>.required "active" .flag (·.active)

/-- A controller. -/
structure Controller where
  name : String := ""
  spec : ControllerSpec := {}
  status : Option ControllerStatus := none
deriving DecidableEq, Repr, Inhabited

/-- Controllers on the wire. -/
def Controller.codec : Codec Controller :=
  .record <| (Fields.of Controller Controller.mk)
    |>.defaulted "name" .text (·.name) ""
    |>.required "spec" ControllerSpec.codec (·.spec)
    |>.nullable "status" ControllerStatus.codec (·.status)

/-! ## Namespaces -/

/-- What is asked of a namespace. A namespace number of zero lets the engine choose one. -/
structure NvmeNamespaceSpec where
  subsystemNameRef : String := ""
  hostNsid : Int32 := 0
  volumeNameRef : String := ""
  uuid : Option String := none
  nguid : Option String := none
  eui64 : Option String := none
deriving DecidableEq, Repr, Inhabited

/-- Namespace specifications on the wire. -/
def NvmeNamespaceSpec.codec : Codec NvmeNamespaceSpec :=
  .record <| (Fields.of NvmeNamespaceSpec NvmeNamespaceSpec.mk)
    |>.defaulted "subsystemNameRef" .text (·.subsystemNameRef) ""
    |>.defaulted "hostNsid" .int32 (·.hostNsid) 0
    |>.required "volumeNameRef" .text (·.volumeNameRef)
    |>.nullable "uuid" .text (·.uuid)
    |>.nullable "nguid" .text (·.nguid)
    |>.nullable "eui64" .text (·.eui64)

/-- The states of a namespace. -/
inductive OperState where
  | unspecified
  | enabled
  | disabled
deriving DecidableEq, Repr, Inhabited

/-- The state on the wire. -/
def OperState.word : OperState → String
  | .unspecified => "unspecified"
  | .enabled => "enabled"
  | .disabled => "disabled"

/-- Namespace states as words. -/
def OperState.codec : Codec OperState :=
  .word OperState.word
    [("unspecified", .unspecified), ("enabled", .enabled), ("disabled", .disabled)]

/-- Whether a namespace is in operation. -/
structure NvmeNamespaceStatus where
  operState : OperState := .unspecified
deriving DecidableEq, Repr, Inhabited

/-- Namespace states on the wire. -/
def NvmeNamespaceStatus.codec : Codec NvmeNamespaceStatus :=
  .record <| (Fields.of NvmeNamespaceStatus NvmeNamespaceStatus.mk)
    |>.required "operState" OperState.codec (·.operState)

/-- A namespace. -/
structure NvmeNamespace where
  name : String := ""
  spec : NvmeNamespaceSpec := {}
  status : Option NvmeNamespaceStatus := none
deriving DecidableEq, Repr, Inhabited

/-- Namespaces on the wire. -/
def NvmeNamespace.codec : Codec NvmeNamespace :=
  .record <| (Fields.of NvmeNamespace NvmeNamespace.mk)
    |>.defaulted "name" .text (·.name) ""
    |>.required "spec" NvmeNamespaceSpec.codec (·.spec)
    |>.nullable "status" NvmeNamespaceStatus.codec (·.status)

end StorageControl
