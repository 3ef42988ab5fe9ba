/-
# Answering requests

A request that is understood becomes an operation on the inventory, and its result becomes the
answer. A failed operation is answered as well, with the class of the fault and its wording.
Answering is a procedure, like the operations themselves.
-/
import StorageControl.Config.SocketAddress
import StorageControl.Engine.Counters
import StorageControl.Rest.Request

namespace StorageControl.Rest

open Engine (Script Counters)

/-- Where requests are taken in unless another address is configured. -/
def defaultAddress : Config.SocketAddress := .v4 0 0 0 0 8090

/-! ## Responses -/

/-- What is sent with the status. -/
inductive Content where
  | json (value : Json)
  | text (text : String)
deriving Repr

/-- An answer. How a denial is worded does not matter, so it has no content. -/
structure Response where
  status : Nat
  content : Option Content
deriving Repr

namespace Response

/-- An answer with a value. -/
def json (status : Nat) (value : Json) : Response where
  status := status
  content := some (.json value)

/-- An answer with a text. -/
def text (status : Nat) (text : String) : Response where
  status := status
  content := some (.text text)

/-- The answer to a request that is turned down. -/
def ofDenial (denial : Denial) : Response where
  status := denial.status
  content := none

/-- The answer to an operation that failed. -/
def ofFault (fault : Fault) : Response :=
  .json fault.code.status (.object
    [("error", .str fault.code.word), ("message", .str fault.message)])

/-- The head of an answer. -/
def head (r : Response) : Response where
  status := r.status
  content := r.content.bind fun
    | .json _ => none
    | .text _ => some (.text "")

end Response

/-! ## Operations -/

/-- The answer to an operation that was done. A record that an operation was to create is answered
as created. -/
def Response.ofReply {kind : Kind} : Operation kind → Reply kind → Response
  | .create .., .record record => .json 201 (Resource.codec.encode record)
  | _, .record record => .json 200 (Resource.codec.encode record)
  | _, .page page => .json 200 ((Page.codec Resource.codec).encode page)
  | _, .deleted => .text 204 ""
  | _, .stats stats => .json 200 (ResourceStats.codec.encode stats)

variable (registry : Attach.Registry) (counters : Counters)

/-- Does an operation and answers it. -/
def serveOperation (fresh : String) (inv : Inventory) {kind : Kind} (operation : Operation kind) :
    Procedure Response := do
  match ← (inv.perform registry fresh operation).attempt with
  | .ok reply => return .ofReply operation reply
  | .error fault => return .ofFault fault

/-! ## Probes -/

/-- Answers a probe. The server is ready once the engine tells its version. -/
def serveProbe : Probe → Script Response
  | .health => return .text 200 "ok"
  | .readiness => do
    match ← Engine.version.attempt with
    | .ok version => return .text 200 ("ready (" ++ version.version ++ ")")
    | .error fault => return .text 503 ("engine unavailable: " ++ fault.message)
  | .metrics => return .text 200 counters.write

/-! ## Requests -/

/-- Does what is asked for and answers it. -/
def serveDemand (fresh : String) (inv : Inventory) : Demand → Procedure Response
  | .operation _ operation => serveOperation registry fresh inv operation
  | .probe probe => liftM (serveProbe counters probe)

/-- Answers a request. -/
def serve (fresh : String) (inv : Inventory) (r : Request) : Procedure Response := do
  let response ←
    match r.demand with
    | .error denial => Procedure.done (Response.ofDenial denial)
    | .ok demand => serveDemand registry counters fresh inv demand
  return if r.method = "HEAD" then response.head else response

end StorageControl.Rest
