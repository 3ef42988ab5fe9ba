/-
# Envelopes of calls

A call travels as one line of JSON with a number of its own, and its answer comes back as one JSON
value with the same number.
-/
import StorageControl.Engine.Script
import StorageControl.Json.Printer

namespace StorageControl.Engine

open Codec (Fields)

/-! ## Requests -/

/-- A call with its number. -/
structure Request where
  id : UInt64
  method : String
  params : Option Json
deriving DecidableEq, Repr

namespace Request

/-- The version of the protocol. -/
def protocolVersion : String := "2.0"

/-- The members of a request. Without parameters there is no member for them. -/
def members (r : Request) : List (String × Json) :=
  [("jsonrpc", .str protocolVersion), ("id", .ofInt r.id.toNat), ("method", .str r.method)] ++
    match r.params with
    | some params => [("params", params)]
    | none => []

/-- The request as JSON, with its members in the order in which they are named above. -/
def text (r : Request) : String :=
  Json.print (.obj r.members)

/-- The line that is sent. -/
def line (r : Request) : String :=
  r.text ++ "\n"

end Request

/-! ## Responses -/

/-- What the engine says when it declines a call. -/
structure ResponseError where
  code : Int64 := 0
  message : String := ""
deriving DecidableEq, Repr, Inhabited

/-- Errors on the wire. -/
def ResponseError.codec : Codec ResponseError :=
  .record <| (Fields.of ResponseError ResponseError.mk)
    |>.defaulted "code" .int64 (·.code) 0
    |>.defaulted "message" .text (·.message) ""

/-- The answer to the call with a number. -/
structure Response where
  protocol : Option String := none
  id : UInt64
  error : Option ResponseError := none
  result : Option Json := none
deriving DecidableEq, Repr

/-- Responses on the wire. -/
def Response.codec : Codec Response :=
  .record <| (Fields.of Response Response.mk)
    |>.nullable "jsonrpc" .text (·.protocol)
    |>.required "id" .uint64 (·.id)
    |>.nullable "error" ResponseError.codec (·.error)
    |>.nullable "result" .free (·.result)

/-- What a response says about the call with number `id`. An error with code zero is none. -/
def Response.answer (r : Response) (id : UInt64) : Answer :=
  if r.id ≠ id then .error (.mismatched id r.id)
  else
    match r.error with
    | some e =>
      if e.code ≠ 0 then .error (.declined e.code e.message) else .ok (r.result.getD .null)
    | none => .ok (r.result.getD .null)

end StorageControl.Engine
