/-
# Procedures

An operation on the inventory is a procedure: engine calls and changes of what is kept, in the
order in which they are made. A change is made at once, and it stays when something fails after
it.
-/
import StorageControl.Engine.Script
import StorageControl.Inventory

namespace StorageControl

open Engine (Call Answer Script)

/-! ## Changes -/

/-- A change of what is kept: a record is kept or dropped, or the page tokens are others. -/
inductive Change where
  | keep (k : Kind) (name : String) (record : k.Record)
  | drop (k : Kind) (name : String)
  | hand (cursors : Cursors)

/-- The inventory after a change. -/
def Inventory.apply (inv : Inventory) : Change → Inventory
  | .keep k name record => inv.keep k name record
  | .drop k name => inv.drop k name
  | .hand cursors => { inv with cursors }

/-! ## Events -/

/-- A call and the answer to it. -/
structure Exchange where
  request : Call
  answer : Answer

/-- What happens in a procedure. -/
inductive Event where
  | asked (exchange : Exchange)
  | changed (change : Change)

/-- The inventory after an event. -/
def Inventory.afterEvent (inv : Inventory) : Event → Inventory
  | .asked _ => inv
  | .changed c => inv.apply c

/-- The inventory after events. -/
def Inventory.after (inv : Inventory) (events : List Event) : Inventory :=
  events.foldl afterEvent inv

/-! ## Procedures -/

/-- Calls and changes to be made, and what comes of them. -/
inductive Procedure (α : Type) where
  | done (value : α)
  | failed (fault : Fault)
  | call (request : Call) (resume : Answer → Procedure α)
  | change (change : Change) (rest : Procedure α)

namespace Procedure

variable {α β σ : Type}

/-- Goes on after a procedure unless it fails. -/
def bind : Procedure α → (α → Procedure β) → Procedure β
  | .done a, f => f a
  | .failed e, _ => .failed e
  | .call request resume, f => .call request fun answer => (resume answer).bind f
  | .change c rest, f => .change c (rest.bind f)

instance : Monad Procedure where
  pure := .done
  bind := bind

/-- A script as a procedure that changes nothing. -/
def ofScript : Script α → Procedure α
  | .done a => .done a
  | .failed e => .failed e
  | .call request resume => .call request fun answer => ofScript (resume answer)

instance : MonadLift Script Procedure where
  monadLift := ofScript

/-- Makes a change. -/
def make (c : Change) : Procedure Unit :=
  .change c (.done ())

/-- The result of a procedure, whether it fails or not. -/
def attempt : Procedure α → Procedure (Except Fault α)
  | .done a => .done (.ok a)
  | .failed e => .done (.error e)
  | .call request resume => .call request fun answer => (resume answer).attempt
  | .change c rest => .change c rest.attempt

/-! ## Running a procedure -/

/-- How a procedure went: what happened, what came of it, and the engine afterwards. -/
structure Course (α σ : Type) where
  events : List Event
  result : Except Fault α
  engine : σ

/-- A course before which something else happened. -/
def Course.after (e : Event) (c : Course α σ) : Course α σ :=
  { c with events := e :: c.events }

/-- Runs a procedure against an engine with a state. -/
def run (engine : σ → Call → Answer × σ) : Procedure α → σ → Course α σ
  | .done a, s => ⟨[], .ok a, s⟩
  | .failed e, s => ⟨[], .error e, s⟩
  | .call request resume, s =>
    let (answer, s) := engine s request
    ((resume answer).run engine s).after (.asked ⟨request, answer⟩)
  | .change c rest, s => (rest.run engine s).after (.changed c)

/-! ## Small facts -/

@[simp] theorem done_bind (a : α) (f : α → Procedure β) : (Procedure.done a).bind f = f a := rfl

@[simp] theorem failed_bind (e : Fault) (f : α → Procedure β) :
    (Procedure.failed e).bind f = .failed e := rfl

@[simp] theorem bind_eq (x : Procedure α) (f : α → Procedure β) : (x >>= f) = x.bind f := rfl

@[simp] theorem pure_eq (a : α) : (pure a : Procedure α) = .done a := rfl

/-- It does not matter how procedures in a row are put together. -/
theorem bind_assoc {γ : Type} (x : Procedure α) (f : α → Procedure β) (g : β → Procedure γ) :
    (x.bind f).bind g = x.bind fun a => (f a).bind g := by
  induction x with
  | done a => rfl
  | failed e => rfl
  | call request resume ih =>
    simp only [bind]
    congr 1
    funext answer
    exact ih answer
  | change c rest ih =>
    simp only [bind]
    rw [ih]

@[simp] theorem lift_eq (x : Script α) : (liftM x : Procedure α) = ofScript x := rfl

end Procedure

namespace Inventory

@[simp] theorem after_nil (inv : Inventory) : inv.after [] = inv := rfl

@[simp] theorem after_asked (inv : Inventory) (x : Exchange) (events : List Event) :
    inv.after (.asked x :: events) = inv.after events := rfl

@[simp] theorem after_changed (inv : Inventory) (c : Change) (events : List Event) :
    inv.after (.changed c :: events) = (inv.apply c).after events := rfl

/-- Calls change nothing that is kept. -/
@[simp] theorem after_map_asked (inv : Inventory) (t : List Exchange) :
    inv.after (t.map .asked) = inv := by
  induction t with
  | nil => rfl
  | cons x t ih => exact ih

/-- What happens in two parts happens in the first and then in the second. -/
theorem after_append (inv : Inventory) (l m : List Event) :
    inv.after (l ++ m) = (inv.after l).after m :=
  List.foldl_append

end Inventory

end StorageControl
