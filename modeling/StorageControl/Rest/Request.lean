/-
# Requests

A request is a method, a target, the type of its body, and the body. Understanding it either gives
what it asks for or turns it down, and does not depend on what is kept or on the engine. A request
is looked at in this order: its path, its method, the ids in the path, its query, its body.
-/
import StorageControl.Inventory.Operation
import StorageControl.Rest.MediaType
import StorageControl.Rest.Query
import StorageControl.Rest.Route

namespace StorageControl.Rest

/-! ## Requests -/

/-- A request. -/
structure Request where
  method : String
  target : Target
  contentType : Option String
  body : List UInt8
deriving Repr

/-- Text of a header: visible characters, blanks and tabs, or whatever is not ASCII. -/
def isHeaderChar (c : Char) : Bool :=
  (0x20 ≤ c.toNat && c.toNat ≠ 0x7F) || c = '\t'

/-- A request as it is made out of texts. -/
def Request.make (method target : String) (contentType : Option String) (body : List UInt8) :
    Except Fault Request :=
  if method.isEmpty || !method.toList.all isTokenChar then .error (.internal "invalid HTTP method")
  else
    match Target.parse target with
    | .error fault => .error (.internal fault.message)
    | .ok target =>
      if contentType.any fun s => !s.toList.all isHeaderChar then
        .error (.internal "failed to parse header value")
      else .ok { method, target, contentType, body }

/-! ## Turning down -/

/-- Why a request is not understood. -/
inductive Denial where
  | unknownPath
  | foreignMethod
  | malformedPath
  | malformedQuery
  | foreignBody
  | longBody
  | malformedBody
  | unfitBody
deriving DecidableEq, Repr

/-- The HTTP status that answers a denial. -/
def Denial.status : Denial → Nat
  | .unknownPath => 404
  | .foreignMethod => 405
  | .malformedPath | .malformedQuery | .malformedBody => 400
  | .foreignBody => 415
  | .longBody => 413
  | .unfitBody => 422

/-! ## Bodies -/

/-- How many bytes a body may have. -/
def bodyLengthBound : Nat := 2097152

/-- The body is said to be JSON. -/
def Request.hasJson (r : Request) : Bool :=
  ((r.contentType.filter fun s => s.toList.all fun c => c.toNat < 0x80).bind
    MediaType.parse?).any MediaType.isJson

/-- The body as a value of a type. What follows the value is ignored. -/
def Request.content {α : Type} (r : Request) (c : Codec α) : Except Denial α :=
  if !r.hasJson then .error .foreignBody
  else if r.body.length > bodyLengthBound then .error .longBody
  else
    match c.read r.body with
    | .found a _ => .ok a
    | .unfit => .error .unfitBody
    | .truncated | .malformed => .error .malformedBody

/-! ## Queries -/

/-- The parameters of a request. -/
def Request.query (r : Request) : Query :=
  .parse r.target.query

/-- A parameter, which has to be one of its type. -/
def Request.parameter {α : Type} (r : Request) (names : List String) (default : α)
    (read : String → Option α) : Except Denial α :=
  match r.query.value? names default read with
  | some a => .ok a
  | none => .error .malformedQuery

/-- The names under which the id of a new record may be given. -/
def idParameters : List String :=
  ["id", "subsystemId", "controllerId", "nvmeControllerId", "namespaceId", "nvmeNamespaceId",
    "virtioBlkId", "scsiControllerId", "scsiLunId"]

/-! ## What is asked for -/

/-- What a request asks for. -/
inductive Demand where
  | operation (kind : Kind) (operation : Operation kind)
  | probe (probe : Probe)

/-- An id in a path, with its escapes replaced. -/
def pathId (s : String) : Except Denial String :=
  match unescapeText? s with
  | some id => .ok id
  | none => .error .malformedPath

/-- The name of the parent with the given id, or nothing for a kind without parent. -/
def parentName (kind : Kind) (parentId : String) : String :=
  match kind.parent? with
  | some owner => Name.compose owner "" parentId
  | none => ""

/-- The operation that a task on records stands for. The record of an update has the name that the
path gives it. -/
def Request.operation (r : Request) (kind : Kind) (parentId ownId : String) :
    Task → Except Denial (Operation kind)
  | .list => do
    let pageSize ← r.parameter ["pageSize"] 0 Query.int32?
    let pageToken ← r.parameter ["pageToken"] "" some
    return .list { parent := parentName kind parentId, pageSize, pageToken }
  | .create => do
    let id ← r.parameter idParameters "" some
    let record ← r.content (Resource.codec (ρ := kind.Record))
    return .create (parentName kind parentId) record id
  | .get => return .get (Name.compose kind parentId ownId)
  | .update => do
    let request ← r.content (UpdateRequest.codec (Resource.codec (ρ := kind.Record)))
    let resource := Resource.rename (Name.compose kind parentId ownId) request.resource
    return .update { request with resource }
  | .delete => do
    let allowMissing ← r.parameter ["allowMissing"] false Query.flag?
    return .delete { name := Name.compose kind parentId ownId, allowMissing }
  | .stats => return .stats (Name.compose kind parentId ownId)

/-- What a request asks for at the end of a route. -/
def Request.demandAt (r : Request) (verb : Option Verb) : Route → Except Denial Demand
  | .probe probe => if verb = some .read then .ok (.probe probe) else .error .foreignMethod
  | .records facet kind parentId ownId =>
    match verb.bind facet.task? with
    | none => .error .foreignMethod
    | some task => do
      let parentId ← pathId parentId
      let ownId ← pathId ownId
      let operation ← r.operation kind parentId ownId task
      return .operation kind operation

/-- What a request asks for. -/
def Request.demand (r : Request) : Except Denial Demand :=
  match Route.ofPath? r.target.path with
  | none => .error .unknownPath
  | some route => r.demandAt (Verb.ofMethod? r.method) route

end StorageControl.Rest
