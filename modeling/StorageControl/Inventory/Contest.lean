/-
# Contests of creations

Requests that create records of one kind run at the same time and contend for the lock of the kind.
A request is checked first, on its own. Then it waits for the lock and holds it while it looks for
the record, asks the engine, one call after the other, and keeps what it has made. The steps of
different requests come in any order, and the engine answers in any way.
-/
import Mathlib.Logic.Function.Basic
import StorageControl.Inventory.Operation

namespace StorageControl

open Engine (Answer Call)

/-! ## Requests -/

/-- A request to create a record, with the fresh text for its id if it has none. -/
structure Creation (k : Kind) where
  parent : String := ""
  record : k.Record
  id : String
  fresh : String := ""

namespace Creation

variable {k : Kind} (registry : Attach.Registry)

/-- Where the record belongs, if the request passes the checks that need no lock. -/
def place (request : Creation k) : Except Rejection Place :=
  (k.family registry).place request.fresh request.parent request.record request.id

/-- What the request does with the lock. -/
def procedure (request : Creation k) (inv : Inventory) : Procedure k.Record :=
  inv.create registry k request.fresh request.parent request.record request.id

end Creation

/-! ## Stages -/

namespace Contest

/-- How far a request has got. -/
inductive Stage (k : Kind) where
  /-- It has not been looked at. -/
  | arrived
  /-- It has been checked and waits for the lock. -/
  | waiting
  /-- It holds the lock, and this is what is left to do. -/
  | working (rest : Procedure k.Record)
  /-- It holds the lock and has made a call that is not answered. -/
  | asking (request : Call) (resume : Answer → Procedure k.Record)
  /-- It has ended. -/
  | ended (result : Except Fault k.Record)

/-- What a request has done to be seen from outside. -/
inductive Mark (ι : Type) where
  | asked (i : ι) (request : Call)
  | heard (i : ι) (answer : Answer)
  | changed (i : ι) (change : Change)

/-- A step: a request goes on by itself, or its call is answered. -/
inductive Move (ι : Type) where
  | go (i : ι)
  | hear (i : ι) (answer : Answer)

end Contest

/-! ## Contests -/

/-- Requests at their stages, with what is kept, who holds the lock, and what has been done. -/
structure Contest (ι : Type) (k : Kind) where
  inventory : Inventory
  holder : Option ι := none
  stage : ι → Contest.Stage k := fun _ => .arrived
  history : List (Contest.Mark ι) := []

namespace Contest

variable {ι : Type} [DecidableEq ι] {k : Kind}

/-- All requests have arrived, and none has been looked at. -/
def start (inv : Inventory) : Contest ι k where
  inventory := inv

/-- A request gets to a stage. -/
def put (c : Contest ι k) (i : ι) (stage : Stage k) : Contest ι k :=
  { c with stage := Function.update c.stage i stage }

/-- Something has been done. -/
def note (c : Contest ι k) (mark : Mark ι) : Contest ι k :=
  { c with history := c.history ++ [mark] }

/-- A request that holds the lock does what comes next. It gives the lock back when it is over. -/
def work (c : Contest ι k) (i : ι) : Procedure k.Record → Contest ι k
  | .done a => { c.put i (.ended (.ok a)) with holder := none }
  | .failed e => { c.put i (.ended (.error e)) with holder := none }
  | .call request resume => (c.put i (.asking request resume)).note (.asked i request)
  | .change change rest =>
    { (c.put i (.working rest)).note (.changed i change) with
      inventory := c.inventory.apply change }

variable (registry : Attach.Registry) (requests : ι → Creation k)

/-- The contest after a step, if the step can be taken. The lock is taken by one that waits for it
when nobody holds it. -/
def move (c : Contest ι k) : Move ι → Option (Contest ι k)
  | .go i =>
    match c.stage i with
    | .arrived =>
      match (requests i).place registry with
      | .error why => some (c.put i (.ended (.error (.rejected why))))
      | .ok _ => some (c.put i .waiting)
    | .waiting =>
      if c.holder.isNone then
        some { c.put i (.working ((requests i).procedure registry c.inventory)) with
          holder := some i }
      else none
    | .working rest => some (c.work i rest)
    | .asking _ _ | .ended _ => none
  | .hear i answer =>
    match c.stage i with
    | .asking _ resume => some ((c.put i (.working (resume answer))).note (.heard i answer))
    | .arrived | .waiting | .working _ | .ended _ => none

/-- The contest after steps, if all of them can be taken. -/
def run (c : Contest ι k) (moves : List (Move ι)) : Option (Contest ι k) :=
  moves.foldlM (fun c m => c.move registry requests m) c

/-- What a request has come to, if it is over. -/
def result? (c : Contest ι k) (i : ι) : Option (Except Fault k.Record) :=
  match c.stage i with
  | .ended result => some result
  | .arrived | .waiting | .working _ | .asking _ _ => none

/-- The calls that have been made. -/
def calls (c : Contest ι k) : List Call :=
  c.history.filterMap fun
    | .asked _ request => some request
    | .heard _ _ | .changed _ _ => none

end Contest

end StorageControl
