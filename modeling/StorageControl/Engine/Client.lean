/-
# A client of the engine

A client makes calls over one stream, one after the other, and numbers them. It connects when it
has to. A stream that failed, or on which the answer of another call came, is never used again,
since it may still hold the rest of an answer.
-/
import StorageControl.Engine.Address
import StorageControl.Engine.Counters
import StorageControl.Engine.Envelope
import StorageControl.Engine.Stream

namespace StorageControl.Engine

/-! ## Receiving a response -/

/-- The room that a client starts to read a response with. -/
def initialRoom : Nat := 4096

/-- Room for more bytes: when it is used up it is doubled. -/
def enlarge (room used : Nat) : Nat :=
  if used < room then room else 2 * room

/-- Reads until the bytes so far hold a response, cannot become one, or are too many. -/
def receive (bound : UInt64) (room : Nat) (done : List UInt8) (s : Stream) :
    Except LinkFailure Response × Stream :=
  let room := enlarge room done.length
  match _h : s.read (room - done.length) with
  | (.fault reason, s) => (.error (.reading reason), s)
  | (.bytes [], s) => (.error .endedEarly, s)
  | (.bytes (b :: bs), s) =>
    let done := done ++ b :: bs
    if done.length > bound.toNat then (.error (.tooLong bound), s)
    else
      match Response.codec.read done with
      | .found response _ => (.ok response, s)
      | .truncated => receive bound room done s
      | .malformed | .unfit => (.error .malformedResponse, s)
termination_by s.remaining
decreasing_by exact Stream.remaining_read _h

/-! ## One call -/

/-- Sends a request. -/
def send (request : Request) (s : Stream) : Except LinkFailure Unit × Stream :=
  match s.write request.line with
  | (.error reason, s) => (.error (.sending request.method reason), s)
  | (.ok (), s) =>
    match s.flush with
    | (.error reason, s) => (.error (.sending request.method reason), s)
    | (.ok (), s) => (.ok (), s)

/-- Sends a request and receives its answer. -/
def exchange (bound : UInt64) (request : Request) (s : Stream) : Answer × Stream :=
  match send request s with
  | (.error failure, s) => (.error (.unreachable failure), s)
  | (.ok (), s) =>
    match receive bound initialRoom [] s with
    | (.error failure, s) => (.error (.unreachable failure), s)
    | (.ok response, s) => (response.answer request.id, s)

/-! ## Clients -/

/-- A client of the engine. Without address it only has the stream that it was given. What comes
of the attempts to connect is fixed by `dial`, and `dropped` are the streams that are no longer
used, with the last one first. -/
structure Client where
  address : Option Address
  bound : UInt64
  dial : Nat → Except String Stream
  dialled : Nat := 0
  issued : UInt64 := 0
  stream : Option Stream := none
  dropped : List Stream := []
  counters : Counters := .zero

namespace Client

/-- A client that connects to an address. -/
def connecting (address : Address) (bound : UInt64) (dial : Nat → Except String Stream) :
    Client where
  address := some address
  bound := bound
  dial := dial

/-- A client over a given stream. -/
def ofStream (stream : Stream) (bound : UInt64) : Client where
  address := none
  bound := bound
  dial := fun _ => .ok {}
  stream := some stream

/-- The number of the next call. -/
def nextId (c : Client) : UInt64 :=
  c.issued + 1

/-- Every stream that was used, in order. -/
def streams (c : Client) : List Stream :=
  c.dropped.reverse ++ c.stream.toList

/-- The stream to use, connecting if there is none. -/
def connect (c : Client) : Except LinkFailure Stream × Client :=
  match c.stream, c.address with
  | some stream, _ => (.ok stream, c)
  | none, none => (.error .closed, c)
  | none, some address =>
    let next := { c with dialled := c.dialled + 1 }
    match c.dial c.dialled with
    | .ok stream => (.ok stream, { next with stream := some stream })
    | .error reason => (.error (.connect address.print reason), next)

/-- Counts a failure of a call, if it is one. -/
def note (c : Client) (method : String) : Answer → Client
  | .ok _ => c
  | .error fault =>
    match FailureKind.ofFault? fault with
    | some kind => { c with counters := c.counters.countFailure method kind }
    | none => c

/-- A stream can be used on after an answer, unless the stream failed or the answer was another
call's. -/
def keepsStream : Answer → Bool
  | .ok _ => true
  | .error fault =>
    match FailureKind.ofFault? fault with
    | some .transport | some .protocol => false
    | _ => true

/-- Keeps a stream or drops it. -/
def putBack (c : Client) (stream : Stream) (answer : Answer) : Client :=
  if keepsStream answer then { c with stream := some stream }
  else { c with stream := none, dropped := stream :: c.dropped }

/-- Calls a method by its name. -/
def callNamed (c : Client) (method : String) (params : Option Json) : Answer × Client :=
  let id := c.nextId
  let c := { c with issued := id, counters := c.counters.countCall method }
  match c.connect with
  | (.error failure, c) =>
    let answer := .error (.unreachable failure)
    (answer, c.note method answer)
  | (.ok stream, c) =>
    let (answer, stream) := exchange c.bound ⟨id, method, params⟩ stream
    (answer, (c.putBack stream answer).note method answer)

/-- Makes a call. -/
def call (c : Client) (request : Call) : Answer × Client :=
  c.callNamed request.method.name request.params

/-- Runs a script over a client. -/
def run {α : Type} (c : Client) (script : Script α) : Except Fault α × Client :=
  script.run call c

end Client

end StorageControl.Engine
