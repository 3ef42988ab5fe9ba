/-
# What is said to the engine and what it lists

The parameters of the engine's methods and the rows of its listings, with the field names of its
own interface.
-/
import StorageControl.Json.Codec

namespace StorageControl.Engine

open Codec (Fields)

/-! ## Version -/

/-- The parts of a version. -/
structure VersionFields where
  major : Int64 := 0
  minor : Int64 := 0
  patch : Int64 := 0
  suffix : String := ""
deriving DecidableEq, Repr, Inhabited

/-- Version parts on the wire. -/
def VersionFields.codec : Codec VersionFields :=
  .record <| (Fields.of VersionFields VersionFields.mk)
    |>.required "major" .int64 (·.major)
    |>.required "minor" .int64 (·.minor)
    |>.required "patch" .int64 (·.patch)
    |>.defaulted "suffix" .text (·.suffix) ""

/-- The version of the engine. -/
structure Version where
  version : String := ""
  fields : VersionFields := {}
deriving DecidableEq, Repr, Inhabited

/-- Versions on the wire. -/
def Version.codec : Codec Version :=
  .record <| (Fields.of Version Version.mk)
    |>.required "version" .text (·.version)
    |>.defaulted "fields" VersionFields.codec (·.fields) {}

/-! ## Subsystems -/

/-- A subsystem to be created. -/
structure CreateSubsystem where
  nqn : String
  serialNumber : String
  modelNumber : String
  allowAnyHost : Bool
  maxNamespaces : Int64
deriving DecidableEq, Repr

/-- Subsystems to be created on the wire. -/
def CreateSubsystem.codec : Codec CreateSubsystem :=
  .record <| (Fields.of CreateSubsystem CreateSubsystem.mk)
    |>.required "nqn" .text (·.nqn)
    |>.required "serial_number" .text (·.serialNumber)
    |>.required "model_number" .text (·.modelNumber)
    |>.required "allow_any_host" .flag (·.allowAnyHost)
    |>.required "max_namespaces" .int64 (·.maxNamespaces)

/-- A subsystem by its qualified name. -/
structure SubsystemRef where
  nqn : String
deriving DecidableEq, Repr

/-- Subsystem references on the wire. -/
def SubsystemRef.codec : Codec SubsystemRef :=
  .record <| (Fields.of SubsystemRef SubsystemRef.mk)
    |>.required "nqn" .text (·.nqn)

/-- A host that may connect to a subsystem. -/
structure AddHost where
  nqn : String
  host : String
  psk : Option String
deriving DecidableEq, Repr

/-- Hosts to be added on the wire. -/
def AddHost.codec : Codec AddHost :=
  .record <| (Fields.of AddHost AddHost.mk)
    |>.required "nqn" .text (·.nqn)
    |>.required "host" .text (·.host)
    |>.omittable "psk" .text (·.psk)

/-! ## Listeners -/

/-- Where a subsystem listens for hosts. -/
structure ListenAddress where
  trtype : String
  traddr : String
  trsvcid : String := ""
  adrfam : String := ""
deriving DecidableEq, Repr, Inhabited

/-- Listen addresses on the wire. -/
def ListenAddress.codec : Codec ListenAddress :=
  .record <| (Fields.of ListenAddress ListenAddress.mk)
    |>.required "trtype" .text (·.trtype)
    |>.required "traddr" .text (·.traddr)
    |>.defaulted "trsvcid" .text (·.trsvcid) ""
    |>.omittableText "adrfam" (·.adrfam)

/-- A text in small letters, as far as its letters are Latin. -/
def lowercase (s : String) : List Char :=
  s.toList.map Char.toLower

/-- Two addresses name the same endpoint. The engine reports the transport in either case, and
the address family does not matter. -/
def ListenAddress.sameEndpoint (a b : ListenAddress) : Bool :=
  lowercase a.trtype == lowercase b.trtype && a.traddr == b.traddr && a.trsvcid == b.trsvcid

/-- A listener of a subsystem. -/
structure Listener where
  nqn : String
  listenAddress : ListenAddress
  secureChannel : Option Bool := none
deriving DecidableEq, Repr

/-- Listeners on the wire. -/
def Listener.codec : Codec Listener :=
  .record <| (Fields.of Listener Listener.mk)
    |>.required "nqn" .text (·.nqn)
    |>.required "listen_address" ListenAddress.codec (·.listenAddress)
    |>.omittable "secure_channel" .flag (·.secureChannel)

/-! ## Namespaces -/

/-- A volume to be attached to a subsystem. -/
structure NamespaceParams where
  nsid : Option Int32
  bdevName : String
  uuid : Option String
  nguid : Option String
  eui64 : Option String
deriving DecidableEq, Repr

/-- Volumes to be attached on the wire. -/
def NamespaceParams.codec : Codec NamespaceParams :=
  .record <| (Fields.of NamespaceParams NamespaceParams.mk)
    |>.omittable "nsid" .int32 (·.nsid)
    |>.required "bdev_name" .text (·.bdevName)
    |>.omittable "uuid" .text (·.uuid)
    |>.omittable "nguid" .text (·.nguid)
    |>.omittable "eui64" .text (·.eui64)

/-- A namespace to be added to a subsystem. -/
structure AddNamespace where
  nqn : String
  params : NamespaceParams
deriving DecidableEq, Repr

/-- Namespaces to be added on the wire. -/
def AddNamespace.codec : Codec AddNamespace :=
  .record <| (Fields.of AddNamespace AddNamespace.mk)
    |>.required "nqn" .text (·.nqn)
    |>.required "namespace" NamespaceParams.codec (·.params)

/-- A namespace to be removed from a subsystem. -/
structure RemoveNamespace where
  nqn : String
  nsid : Int32
deriving DecidableEq, Repr

/-- Namespaces to be removed on the wire. -/
def RemoveNamespace.codec : Codec RemoveNamespace :=
  .record <| (Fields.of RemoveNamespace RemoveNamespace.mk)
    |>.required "nqn" .text (·.nqn)
    |>.required "nsid" .int32 (·.nsid)

/-- A namespace as the engine lists it. -/
structure NamespaceRow where
  nsid : Int32
  bdevName : String := ""
  name : String := ""
  uuid : Option String := none
  nguid : Option String := none
  eui64 : Option String := none
deriving DecidableEq, Repr, Inhabited

/-- Listed namespaces on the wire. -/
def NamespaceRow.codec : Codec NamespaceRow :=
  .record <| (Fields.of NamespaceRow NamespaceRow.mk)
    |>.required "nsid" .int32 (·.nsid)
    |>.defaulted "bdev_name" .text (·.bdevName) ""
    |>.defaulted "name" .text (·.name) ""
    |>.nullable "uuid" .text (·.uuid)
    |>.nullable "nguid" .text (·.nguid)
    |>.nullable "eui64" .text (·.eui64)

/-- A subsystem as the engine lists it. -/
structure SubsystemRow where
  nqn : String
  subtype : String := ""
  listenAddresses : List ListenAddress := []
  allowAnyHost : Bool := false
  hosts : List Json := []
  serialNumber : String := ""
  modelNumber : String := ""
  maxNamespaces : Int64 := 0
  namespaces : List NamespaceRow := []
deriving DecidableEq, Repr, Inhabited

/-- Listed subsystems on the wire. -/
def SubsystemRow.codec : Codec SubsystemRow :=
  .record <| (Fields.of SubsystemRow SubsystemRow.mk)
    |>.required "nqn" .text (·.nqn)
    |>.defaulted "subtype" .text (·.subtype) ""
    |>.defaulted "listen_addresses" ListenAddress.codec.list (·.listenAddresses) []
    |>.defaulted "allow_any_host" .flag (·.allowAnyHost) false
    |>.defaulted "hosts" Codec.free.list (·.hosts) []
    |>.defaulted "serial_number" .text (·.serialNumber) ""
    |>.defaulted "model_number" .text (·.modelNumber) ""
    |>.defaulted "max_namespaces" .int64 (·.maxNamespaces) 0
    |>.defaulted "namespaces" NamespaceRow.codec.list (·.namespaces) []

/-- The subsystem serves discovery and is the engine's own. -/
def SubsystemRow.isDiscovery (row : SubsystemRow) : Bool :=
  lowercase row.subtype == lowercase "discovery"

/-! ## Target counters -/

/-- The counters of a poll group. -/
structure PollGroup where
  name : String
  adminQpairs : Int64 := 0
  ioQpairs : Int64 := 0
  currentAdminQpairs : Int64 := 0
  currentIoQpairs : Int64 := 0
  pendingBdevIo : Int64 := 0
deriving DecidableEq, Repr, Inhabited

/-- Poll groups on the wire. -/
def PollGroup.codec : Codec PollGroup :=
  .record <| (Fields.of PollGroup PollGroup.mk)
    |>.required "name" .text (·.name)
    |>.defaulted "admin_qpairs" .int64 (·.adminQpairs) 0
    |>.defaulted "io_qpairs" .int64 (·.ioQpairs) 0
    |>.defaulted "current_admin_qpairs" .int64 (·.currentAdminQpairs) 0
    |>.defaulted "current_io_qpairs" .int64 (·.currentIoQpairs) 0
    |>.defaulted "pending_bdev_io" .int64 (·.pendingBdevIo) 0

/-- The counters of the target. -/
structure TargetStats where
  tickRate : Int64 := 0
  pollGroups : List PollGroup := []
deriving DecidableEq, Repr, Inhabited

/-- Target counters on the wire. -/
def TargetStats.codec : Codec TargetStats :=
  .record <| (Fields.of TargetStats TargetStats.mk)
    |>.defaulted "tick_rate" .int64 (·.tickRate) 0
    |>.defaulted "poll_groups" PollGroup.codec.list (·.pollGroups) []

/-! ## Volumes -/

/-- A volume by its name. -/
structure VolumeRef where
  name : String
deriving DecidableEq, Repr

/-- Volume references on the wire. -/
def VolumeRef.codec : Codec VolumeRef :=
  .record <| (Fields.of VolumeRef VolumeRef.mk)
    |>.required "name" .text (·.name)

/-- A volume's counters as the engine lists them. -/
structure VolumeRow where
  name : String
  bytesRead : Int64 := 0
  numReadOps : Int64 := 0
  bytesWritten : Int64 := 0
  numWriteOps : Int64 := 0
  readLatencyTicks : Int64 := 0
  writeLatencyTicks : Int64 := 0
deriving DecidableEq, Repr, Inhabited

/-- Listed volume counters on the wire. -/
def VolumeRow.codec : Codec VolumeRow :=
  .record <| (Fields.of VolumeRow VolumeRow.mk)
    |>.required "name" .text (·.name)
    |>.defaulted "bytes_read" .int64 (·.bytesRead) 0
    |>.defaulted "num_read_ops" .int64 (·.numReadOps) 0
    |>.defaulted "bytes_written" .int64 (·.bytesWritten) 0
    |>.defaulted "num_write_ops" .int64 (·.numWriteOps) 0
    |>.defaulted "read_latency_ticks" .int64 (·.readLatencyTicks) 0
    |>.defaulted "write_latency_ticks" .int64 (·.writeLatencyTicks) 0

/-- The answer to a question for volume counters. -/
structure VolumeReport where
  tickRate : Int64 := 0
  ticks : Int64 := 0
  bdevs : List VolumeRow := []
deriving DecidableEq, Repr, Inhabited

/-- Volume reports on the wire. -/
def VolumeReport.codec : Codec VolumeReport :=
  .record <| (Fields.of VolumeReport VolumeReport.mk)
    |>.defaulted "tick_rate" .int64 (·.tickRate) 0
    |>.defaulted "ticks" .int64 (·.ticks) 0
    |>.defaulted "bdevs" VolumeRow.codec.list (·.bdevs) []

/-- The limits of a volume; zero lifts one. -/
structure VolumeLimits where
  name : String
  rwIosPerSec : Int64 := 0
  rwMbytesPerSec : Int64 := 0
  rMbytesPerSec : Int64 := 0
  wMbytesPerSec : Int64 := 0
deriving DecidableEq, Repr, Inhabited

/-- Volume limits on the wire. -/
def VolumeLimits.codec : Codec VolumeLimits :=
  .record <| (Fields.of VolumeLimits VolumeLimits.mk)
    |>.required "name" .text (·.name)
    |>.required "rw_ios_per_sec" .int64 (·.rwIosPerSec)
    |>.required "rw_mbytes_per_sec" .int64 (·.rwMbytesPerSec)
    |>.required "r_mbytes_per_sec" .int64 (·.rMbytesPerSec)
    |>.required "w_mbytes_per_sec" .int64 (·.wMbytesPerSec)

/-! ## vhost controllers -/

/-- A vhost controller with a volume, to be created. -/
structure CreateBlkController where
  ctrlr : String
  devName : String
deriving DecidableEq, Repr

/-- vhost-blk controllers to be created on the wire. -/
def CreateBlkController.codec : Codec CreateBlkController :=
  .record <| (Fields.of CreateBlkController CreateBlkController.mk)
    |>.required "ctrlr" .text (·.ctrlr)
    |>.required "dev_name" .text (·.devName)

/-- A vhost controller by its id. -/
structure VhostRef where
  ctrlr : String
deriving DecidableEq, Repr

/-- vhost controller references on the wire. -/
def VhostRef.codec : Codec VhostRef :=
  .record <| (Fields.of VhostRef VhostRef.mk)
    |>.required "ctrlr" .text (·.ctrlr)

/-- Asks for one vhost controller, or for all. -/
structure VhostQuery where
  name : Option String := none
deriving DecidableEq, Repr

/-- Questions for vhost controllers on the wire. -/
def VhostQuery.codec : Codec VhostQuery :=
  .record <| (Fields.of VhostQuery VhostQuery.mk)
    |>.omittable "name" .text (·.name)

/-- A volume to be added to a SCSI bus. -/
structure AddTarget where
  ctrlr : String
  scsiTargetNum : Int32
  bdevName : String
deriving DecidableEq, Repr

/-- Targets to be added on the wire. -/
def AddTarget.codec : Codec AddTarget :=
  .record <| (Fields.of AddTarget AddTarget.mk)
    |>.required "ctrlr" .text (·.ctrlr)
    |>.required "scsi_target_num" .int32 (·.scsiTargetNum)
    |>.required "bdev_name" .text (·.bdevName)

/-- A target to be removed from a SCSI bus. -/
structure RemoveTarget where
  ctrlr : String
  scsiTargetNum : Int32
deriving DecidableEq, Repr

/-- Targets to be removed on the wire. -/
def RemoveTarget.codec : Codec RemoveTarget :=
  .record <| (Fields.of RemoveTarget RemoveTarget.mk)
    |>.required "ctrlr" .text (·.ctrlr)
    |>.required "scsi_target_num" .int32 (·.scsiTargetNum)

/-- The volume behind a vhost-blk controller. -/
structure BlockBackend where
  bdev : String := ""
  readonly : Bool := false
deriving DecidableEq, Repr, Inhabited

/-- Block backends on the wire. -/
def BlockBackend.codec : Codec BlockBackend :=
  .record <| (Fields.of BlockBackend BlockBackend.mk)
    |>.defaulted "bdev" .text (·.bdev) ""
    |>.defaulted "readonly" .flag (·.readonly) false

/-- A unit of a SCSI target. -/
structure TargetLun where
  id : Int32
  bdevName : String
deriving DecidableEq, Repr, Inhabited

/-- Target units on the wire. -/
def TargetLun.codec : Codec TargetLun :=
  .record <| (Fields.of TargetLun TargetLun.mk)
    |>.required "id" .int32 (·.id)
    |>.required "bdev_name" .text (·.bdevName)

/-- A SCSI target as the engine lists it. -/
structure TargetRow where
  scsiDevNum : Int32
  id : Int32 := 0
  targetName : String := ""
  luns : List TargetLun := []
deriving DecidableEq, Repr, Inhabited

/-- Listed SCSI targets on the wire. -/
def TargetRow.codec : Codec TargetRow :=
  .record <| (Fields.of TargetRow TargetRow.mk)
    |>.required "scsi_dev_num" .int32 (·.scsiDevNum)
    |>.defaulted "id" .int32 (·.id) 0
    |>.defaulted "target_name" .text (·.targetName) ""
    |>.defaulted "luns" TargetLun.codec.list (·.luns) []

/-- What is behind a vhost controller. -/
structure Backend where
  block : Option BlockBackend := none
  scsi : Option (List TargetRow) := none
deriving DecidableEq, Repr, Inhabited

/-- Backends on the wire. -/
def Backend.codec : Codec Backend :=
  .record <| (Fields.of Backend Backend.mk)
    |>.nullable "block" BlockBackend.codec (·.block)
    |>.nullable "scsi" TargetRow.codec.list (·.scsi)

/-- A vhost controller as the engine lists it. -/
structure VhostRow where
  ctrlr : String
  cpumask : String := ""
  socket : String := ""
  backend : Backend := {}
deriving DecidableEq, Repr, Inhabited

/-- Listed vhost controllers on the wire. -/
def VhostRow.codec : Codec VhostRow :=
  .record <| (Fields.of VhostRow VhostRow.mk)
    |>.required "ctrlr" .text (·.ctrlr)
    |>.defaulted "cpumask" .text (·.cpumask) ""
    |>.defaulted "socket" .text (·.socket) ""
    |>.defaulted "backend_specific" Backend.codec (·.backend) {}

end StorageControl.Engine
