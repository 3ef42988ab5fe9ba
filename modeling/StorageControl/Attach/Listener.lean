/-
# Listeners of controllers

A controller is attached by a listener of its subsystem. Over a network fabric the listener has
the address of the controller's endpoint, or the configured one. A controller on an emulated PCI
function has a socket directory of its own, named after its id.
-/
import StorageControl.Config.Transport
import StorageControl.Engine.Row
import StorageControl.Fault
import StorageControl.Record.Nvme

namespace StorageControl.Attach

/-! ## Local functions -/

/-- Emulated devices are physical functions on port zero. -/
def checkLocalFunction (f : PciFunction) : Except Rejection Unit :=
  if f.portId ≠ 0 then .error (.foreignPort f.portId)
  else if f.virtualFunction ≠ 0 then .error (.virtualFunction f.virtualFunction)
  else .ok ()

/-! ## Network fabrics -/

/-- The address of a controller on a network fabric. -/
def fabricAddress (kind : TransportKind) (base : Config.FabricListener) (c : Controller) :
    Except Rejection Engine.ListenAddress := do
  let (traddr, trsvcid, adrfam) ←
    match c.spec.endpoint with
    | some (.fabrics a) => Except.ok (a.traddr, a.trsvcid, a.adrfam)
    | some (.pcie _) => Except.error (Rejection.pciEndpointOnFabric c.name kind.label)
    | none => Except.ok (base.listenAddr, base.listenPort, base.adrfam)
  if traddr.isEmpty ∨ trsvcid.isEmpty then .error (.incompleteAddress c.name)
  else .ok { trtype := kind.label, traddr, trsvcid, adrfam := adrfam.word }

/-! ## Emulated PCI functions -/

/-- The transport of emulated PCI functions, as the engine calls it. -/
def emulatedTransport : String := "vfiouser"

/-- The path of an entry of a directory; an absolute entry stands for itself. -/
def joinPath (dir entry : String) : String :=
  if entry.toList.head? = some '/' then entry
  else if dir.isEmpty ∨ dir.toList.getLast? = some '/' then dir ++ entry
  else dir ++ "/" ++ entry

/-- The socket directory of the controller with an id. -/
def socketDirectory (base : Config.SocketBase) (id : String) : String :=
  joinPath base.ctrlrDir id

/-- The address of a controller on an emulated PCI function. -/
def emulatedAddress (base : Config.SocketBase) (c : Controller) :
    Except Rejection Engine.ListenAddress := do
  match c.spec.endpoint with
  | some (.pcie f) => checkLocalFunction f
  | some (.fabrics _) => Except.error (.fabricEndpointOnPci c.name)
  | none => Except.ok ()
  let id := Name.ownId c.name
  if id.isEmpty then .error .controllerWithoutId
  else .ok { trtype := emulatedTransport, traddr := socketDirectory base id }

/-! ## Listeners of all kinds -/

/-- The transports on offer. All of them take their settings from one configuration, a fabric those
of TCP and an emulated function those of vfio-user; no kind has settings of its own. -/
structure Registry where
  kinds : List TransportKind := TransportKind.all
  config : Config.Transport := {}
deriving Repr

/-- The short name of a transport. -/
def label : TransportKind → String
  | .tcp => "tcp"
  | .rdma => "rdma"
  | .pcie => emulatedTransport

/-- A transport must be on offer. -/
def Registry.check (r : Registry) (kind : TransportKind) : Except Rejection Unit :=
  if kind ∈ r.kinds then .ok () else .error (.unsupportedTransport kind.label)

/-- The listener that attaches a controller to a subsystem. A key makes fabric listeners
secure. -/
def Registry.listener (r : Registry) (c : Controller) (s : Subsystem) :
    Except Rejection Engine.Listener := do
  r.check c.spec.trtype
  match c.spec.trtype with
  | .pcie =>
    let address ← emulatedAddress r.config.vfioUser c
    .ok { nqn := s.spec.nqn, listenAddress := address }
  | kind =>
    let address ← fabricAddress kind r.config.tcp c
    .ok
      { nqn := s.spec.nqn
        listenAddress := address
        secureChannel := s.spec.psk.map fun _ => true }

end StorageControl.Attach
