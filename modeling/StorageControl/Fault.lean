/-
# Faults

Every way in which an operation can fail is one constructor, and its wording is one function. A
fault is either found in the request itself, before anything is asked of the engine, or lies in
what the engine answered, or in the way there.
-/
import StorageControl.Name

namespace StorageControl

/-! ## Faults of a request -/

/-- Why a request is turned down without asking the engine. -/
inductive Rejection where
  | missingField (field : String)
  | malformedId (id : String)
  | notANameOf (kind : Kind) (name : String)
  | foreignNqn (nqn : String)
  | longNqn (nqn : String)
  | nqnTaken (nqn owner : String)
  | negativePageSize (size : Int32)
  | wildcardAmongPaths
  | malformedPath (path : String)
  | namePath
  | unknownPath (path : String)
  | mergeUnfit
  | pinnedField (field name : String)
  | negativeNsid (nsid : Int32)
  | negativeMaxLuns (count : Int32)
  | negativeLimit (field volume : String) (value : Int64)
  | unsupportedTransport (transport : String)
  | pciEndpointOnFabric (controller transport : String)
  | fabricEndpointOnPci (controller : String)
  | incompleteAddress (controller : String)
  | controllerWithoutId
  | foreignPort (port : Int32)
  | virtualFunction (function : Int32)
  | deviceWithoutVolume (id : String)
  | stated (reason : String)
deriving DecidableEq, Repr

/-- The reason in words. -/
def Rejection.message : Rejection → String
  | .missingField field => "missing required field: " ++ field
  | .malformedId id =>
    "user-settable ID must only contain lowercase, numbers and hyphens: " ++ id
  | .notANameOf kind name => name ++ " is not a valid " ++ kind.label ++ " name"
  | .foreignNqn nqn => "NQN must start with \"nqn.\": " ++ nqn
  | .longNqn nqn => "NQN exceeds 223 bytes: " ++ nqn
  | .nqnTaken nqn owner => "NQN " ++ nqn ++ " is already used by " ++ owner
  | .negativePageSize size => "negative page size is not allowed: " ++ toString size.toInt
  | .wildcardAmongPaths => "field mask wildcard cannot be combined with other paths"
  | .malformedPath path => "malformed field mask path: " ++ path
  | .namePath => "field mask cannot change the resource name"
  | .unknownPath path => "unknown field in field mask: " ++ path
  | .mergeUnfit => "field mask produced an invalid resource: a field has an unfit value"
  | .pinnedField field name => field ++ " of " ++ name ++ " cannot be changed by an update"
  | .negativeNsid nsid => "negative host nsid: " ++ toString nsid.toInt
  | .negativeMaxLuns count => "negative maxLuns: " ++ toString count.toInt
  | .negativeLimit field volume value =>
    "negative QoS limit " ++ field ++ " for volume " ++ volume ++ ": " ++ toString value.toInt
  | .unsupportedTransport transport => "unsupported transport type: " ++ transport
  | .pciEndpointOnFabric controller transport =>
    "controller " ++ controller ++ " has a PCIe endpoint but uses " ++ transport ++ " transport"
  | .fabricEndpointOnPci controller =>
    "controller " ++ controller ++ " has a fabrics endpoint but uses PCIe transport"
  | .incompleteAddress controller =>
    "controller " ++ controller ++ " needs a transport address and service id"
  | .controllerWithoutId => "controller name has no id"
  | .foreignPort port => "only port 0 is supported, got " ++ toString port.toInt
  | .virtualFunction function =>
    "virtual functions are not supported, got " ++ toString function.toInt
  | .deviceWithoutVolume id => "virtio-blk " ++ id ++ " has no volume"
  | .stated reason => reason

/-! ## Faults in what the engine answered -/

/-- What the engine refused to do: it answered false, or no usable number. -/
inductive Refusal where
  | createSubsystem (nqn : String)
  | addHost (host nqn : String)
  | deleteSubsystem (nqn : String)
  | createController (name : String)
  | deleteController (name : String)
  | createNamespace (name : String)
  | deleteNamespace (name : String)
  | createVirtioBlk (name : String)
  | deleteVirtioBlk (name : String)
  | createScsiController (name : String)
  | deleteScsiController (name : String)
  | createScsiLun (name : String)
  | deleteScsiLun (name : String)
  | setLimits (volume : String)
deriving DecidableEq, Repr

/-- The refusal in words. -/
def Refusal.message : Refusal → String
  | .createSubsystem nqn => "Could not create NQN: " ++ nqn
  | .addHost host nqn => "Could not add host " ++ host ++ " to NQN: " ++ nqn
  | .deleteSubsystem nqn => "Could not delete NQN: " ++ nqn
  | .createController name => "Could not create CTRL: " ++ name
  | .deleteController name => "Could not delete CTRL: " ++ name
  | .createNamespace name => "Could not create NS: " ++ name
  | .deleteNamespace name => "Could not delete NS: " ++ name
  | .createVirtioBlk name => "Could not create virtio-blk: " ++ name
  | .deleteVirtioBlk name => "Could not delete virtio-blk: " ++ name
  | .createScsiController name => "Could not create SCSI controller: " ++ name
  | .deleteScsiController name => "Could not delete SCSI controller: " ++ name
  | .createScsiLun name => "Could not create SCSI LUN: " ++ name
  | .deleteScsiLun name => "Could not delete SCSI LUN: " ++ name
  | .setLimits volume => "Could not set QoS limits on volume: " ++ volume

/-- What was looked for in an engine listing and is not there. -/
inductive Absence where
  | subsystem (nqn : String)
  | controller (name : String)
  | controllersOf (nqn : String)
  | nvmeNamespace (nsid : Int32)
  | namespacesOf (nqn : String)
  | statsOf (volume : String)
  | virtioBlk (name : String)
  | scsiController (name : String)
  | scsiLun (name : String)
  | scsiLunsOf (owner : String)
deriving DecidableEq, Repr

/-- The absence in words. -/
def Absence.message : Absence → String
  | .subsystem nqn => "Could not find NQN: " ++ nqn
  | .controller name => "Could not find CTRL: " ++ name
  | .controllersOf nqn => "Could not find any controllers for NQN: " ++ nqn
  | .nvmeNamespace nsid => "Could not find NSID: " ++ toString nsid.toInt
  | .namespacesOf nqn => "Could not find any namespaces for NQN: " ++ nqn
  | .statsOf volume => "Could not find stats for volume: " ++ volume
  | .virtioBlk name => "Could not find virtio-blk: " ++ name
  | .scsiController name => "Could not find SCSI controller: " ++ name
  | .scsiLun name => "Could not find SCSI LUN: " ++ name
  | .scsiLunsOf owner => "Could not find any LUNs for controller: " ++ owner

/-! ## Faults on the way to the engine -/

/-- Why no answer of the engine could be used. -/
inductive LinkFailure where
  | closed
  | connect (address reason : String)
  | sending (method reason : String)
  | reading (reason : String)
  | endedEarly
  | tooLong (bound : UInt64)
  | malformedResponse
  | malformedResult (method : String)
  | stated (reason : String)
deriving DecidableEq, Repr

/-- The failure in words. -/
def LinkFailure.message : LinkFailure → String
  | .closed => "connection to engine is closed"
  | .connect address reason => "connect " ++ address ++ ": " ++ reason
  | .sending method reason => "sending " ++ method ++ ": " ++ reason
  | .reading reason => "reading response: " ++ reason
  | .endedEarly => "engine closed the connection before a complete response"
  | .tooLong bound => "response exceeds " ++ toString bound.toNat ++ " bytes"
  | .malformedResponse => "malformed response: not a response envelope"
  | .malformedResult method => "malformed " ++ method ++ " result: not of the expected type"
  | .stated reason => reason

/-! ## Faults of a configuration -/

/-- Why a configuration cannot be used. -/
inductive ConfigFault where
  | unreadable (path reason : String)
  | malformed
  | emptyEngineAddress
  | zeroResponseBound
  | malformedRestAddress
  | blankAddress
  | stated (reason : String)
deriving DecidableEq, Repr

/-- The fault in words. -/
def ConfigFault.message : ConfigFault → String
  | .unreadable path reason => "cannot read " ++ path ++ ": " ++ reason
  | .malformed => "invalid config: not a configuration document"
  | .emptyEngineAddress => "engine.address is empty"
  | .zeroResponseBound => "engine.maxResponseBytes must be positive"
  | .malformedRestAddress => "Invalid REST API address: invalid socket address syntax"
  | .blankAddress => "engine address is empty"
  | .stated reason => reason

/-! ## All faults -/

/-- What is not known: a resource, or a page token. -/
inductive Unknown where
  | record (name : String)
  | pageToken (token : String)
deriving DecidableEq, Repr

/-- What is not offered. -/
inductive Unsupported where
  | statsOfScsiController (name : String)
  | statsOfScsiLun (name : String)
  | updateOfScsiLun (name : String)
  | stated (what : String)
deriving DecidableEq, Repr

/-- Why an operation failed. -/
inductive Fault where
  /-- The request is turned down. -/
  | rejected (why : Rejection)
  /-- The engine did not do what it was asked. -/
  | refused (what : Refusal)
  /-- The engine does not list what it was asked for. -/
  | unlisted (what : Absence)
  /-- There is no such thing. -/
  | unknown (what : Unknown)
  /-- The operation is not offered. -/
  | unsupported (what : Unsupported)
  /-- No usable answer came from the engine. -/
  | unreachable (why : LinkFailure)
  /-- The answer of another call came. -/
  | mismatched (sent received : UInt64)
  /-- The engine answered with an error. -/
  | declined (code : Int64) (message : String)
  /-- Something that cannot be helped went wrong here. -/
  | internal (reason : String)
  /-- The configuration cannot be used. -/
  | misconfigured (why : ConfigFault)
  /-- A value does not have the form that is expected of it. -/
  | malformedValue (reason : String)
  /-- Reading or writing failed. -/
  | inputOutput (reason : String)
deriving DecidableEq, Repr

/-- The key of what is not known. -/
def Unknown.message : Unknown → String
  | .record name => name
  | .pageToken token => "pagination token " ++ token

/-- What is not offered, in words. -/
def Unsupported.message : Unsupported → String
  | .statsOfScsiController name => "stats for SCSI controller " ++ name
  | .statsOfScsiLun name => "stats for SCSI LUN " ++ name
  | .updateOfScsiLun name => "update of SCSI LUN " ++ name
  | .stated what => what

namespace Fault

/-- The fault in words. -/
def message : Fault → String
  | .rejected why => "Invalid argument: " ++ why.message
  | .refused what => "Invalid argument: " ++ what.message
  | .unlisted what => "Invalid argument: " ++ what.message
  | .unknown what => "Unable to find key " ++ what.message
  | .unsupported what => "Not implemented: " ++ what.message
  | .unreachable why => "Engine transport error: " ++ why.message
  | .mismatched sent received =>
    "Engine protocol error: sent request id " ++ toString sent.toNat ++
      ", received response id " ++ toString received.toNat
  | .declined code text => "Engine error " ++ toString code.toInt ++ ": " ++ text
  | .internal reason => "Internal error: " ++ reason
  | .misconfigured why => "Configuration error: " ++ why.message
  | .malformedValue reason => "JSON error: " ++ reason
  | .inputOutput reason => "IO error: " ++ reason

end Fault

/-! ## Classes of faults -/

/-- What a fault means to a caller. -/
inductive FaultCode where
  | invalidArgument
  | notFound
  | unimplemented
  /-- The engine could not be reached or understood. -/
  | unavailable
  /-- The engine was reached and declined. -/
  | engineDeclined
  | internal
deriving DecidableEq, Repr

/-- The class of a fault. -/
def Fault.code : Fault → FaultCode
  | .rejected _ | .refused _ | .unlisted _ => .invalidArgument
  | .unknown _ => .notFound
  | .unsupported _ => .unimplemented
  | .unreachable _ | .mismatched _ _ => .unavailable
  | .declined _ _ => .engineDeclined
  | .internal _ | .misconfigured _ | .malformedValue _ | .inputOutput _ => .internal

/-- The HTTP status that answers a fault of the class. -/
def FaultCode.status : FaultCode → Nat
  | .invalidArgument => 400
  | .notFound => 404
  | .unimplemented => 501
  | .unavailable => 503
  | .engineDeclined => 502
  | .internal => 500

/-- The word for the class in the body of an answer. -/
def FaultCode.word : FaultCode → String
  | .invalidArgument => "invalid_argument"
  | .notFound => "not_found"
  | .unimplemented => "unimplemented"
  | .unavailable => "engine_unavailable"
  | .engineDeclined => "engine_error"
  | .internal => "internal"

end StorageControl
