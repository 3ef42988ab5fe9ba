/-
# Conversations with the engine

A client makes one call after the other. Every contact is written down: what is called, the client
before it, the answer, and the client after it.
-/
import StorageControl.Engine.Bench
import StorageControl.Engine.Client

namespace StorageControl.Engine

/-! ## Contacts -/

/-- A call that a client has made. -/
structure Contact where
  call : NamedCall
  before : Client
  answer : Answer
  after : Client

namespace Contact

/-- The number of the call. -/
def number (x : Contact) : UInt64 :=
  x.before.nextId

/-- What is to be sent. -/
def request (x : Contact) : Request :=
  ⟨x.number, x.call.method, x.call.params⟩

/-- The stream that the call goes over as it was before, or why there is none. -/
def opening (x : Contact) : Except LinkFailure Stream :=
  x.before.connect.1

/-- The place of that stream among all streams of the client. -/
def place (x : Contact) : Nat :=
  x.before.dropped.length

/-- The answer as a value of a type. -/
def outcome {α : Type} (x : Contact) (result : Codec α) : Except Fault α :=
  x.answer.decode x.call.method result

end Contact

/-! ## Conversations -/

namespace Client

/-- The contact in which a client makes a call. -/
def contact (c : Client) (call : NamedCall) : Contact :=
  let (answer, after) := c.callNamed call.method call.params
  ⟨call, c, answer, after⟩

/-- The contacts in which a client makes calls, one after the other. -/
def converse : Client → List NamedCall → List Contact
  | _, [] => []
  | c, call :: calls => c.contact call :: (c.contact call).after.converse calls

/-- The client after some calls. -/
def after (c : Client) (calls : List NamedCall) : Client :=
  calls.foldl (fun c call => (c.contact call).after) c

/-- A script that makes one call has the outcome of the contact. -/
theorem run_invoke {α : Type} (c : Client) (method : Method) (params : Json) (result : Codec α) :
    c.run (Script.invoke method params result) =
      ((c.contact ⟨method.name, some params⟩).outcome result,
        (c.contact ⟨method.name, some params⟩).after) := by
  simp only [run, Script.invoke, Script.run, call, contact, Contact.outcome, Script.receive]
  cases (c.callNamed method.name (some params)).1.decode method.name result <;> rfl

end Client

/-! ## Beginnings -/

/-- Where a client begins: with an address to connect to, or with a stream that it is given. -/
inductive Origin where
  | address (address : Address) (bound : UInt64) (dial : Nat → Except String Stream)
  | stream (stream : Stream) (bound : UInt64)

/-- A client that has made no call. -/
def Origin.client : Origin → Client
  | .address target bound dial => .connecting target bound dial
  | .stream given bound => .ofStream given bound

end StorageControl.Engine
