/-
# Scripts of engine calls

An operation on the engine is a script: it is done, has failed, or makes a call and goes on with
whatever the engine answers. A script decides nothing about the engine, so it can be run against
any engine, and one call at a time.
-/
import StorageControl.Fault
import StorageControl.Engine.Method

namespace StorageControl.Engine

/-! ## Scripts -/

/-- A call of a method. -/
structure Call where
  method : Method
  params : Option Json
deriving DecidableEq, Repr

/-- The engine's answer to a call, or the reason why there is none. -/
abbrev Answer := Except Fault Json

/-- The answer of a method as a value of a type. -/
def Answer.decode {α : Type} (method : String) (result : Codec α) : Answer → Except Fault α
  | .error e => .error e
  | .ok v =>
    match result.decode v with
    | some a => .ok a
    | none => .error (.unreachable (.malformedResult method))

/-- Calls to be made, and what comes of their answers. -/
inductive Script (α : Type) where
  | done (value : α)
  | failed (fault : Fault)
  | call (request : Call) (resume : Answer → Script α)

namespace Script

variable {α β σ : Type}

/-- Goes on after a script unless it fails. -/
def bind : Script α → (α → Script β) → Script β
  | .done a, f => f a
  | .failed e, _ => .failed e
  | .call request resume, f => .call request fun answer => (resume answer).bind f

instance : Monad Script where
  pure := .done
  bind := bind

/-- The result of a script, whether it fails or not. -/
def attempt : Script α → Script (Except Fault α)
  | .done a => .done (.ok a)
  | .failed e => .done (.error e)
  | .call request resume => .call request fun answer => (resume answer).attempt

/-- A check that has been made. -/
def check {α : Type} : Except Rejection α → Script α
  | .ok a => .done a
  | .error why => .failed (.rejected why)

/-- A result that does not need the engine. -/
def settle : Except Fault α → Script α
  | .ok a => .done a
  | .error e => .failed e

/-- A value that must be there. -/
def demand (fault : Fault) : Option α → Script α
  | some a => .done a
  | none => .failed fault

/-- The engine must not have refused. -/
def confirm (granted : Bool) (what : Refusal) : Script Unit :=
  if granted then .done () else .failed (.refused what)

/-! ## Calls with typed answers -/

/-- An answer as a value of a type. -/
def receive (method : Method) (result : Codec α) (answer : Answer) : Script α :=
  settle (Answer.decode method.name result answer)

/-- Calls a method with parameters. -/
def invoke (method : Method) (params : Json) (result : Codec α) : Script α :=
  .call ⟨method, some params⟩ (receive method result)

/-- Calls a method that has no parameters. -/
def invokeBare (method : Method) (result : Codec α) : Script α :=
  .call ⟨method, none⟩ (receive method result)

/-! ## Running a script -/

/-- Runs a script against an engine with a state. -/
def run (engine : σ → Call → Answer × σ) : Script α → σ → Except Fault α × σ
  | .done a, s => (.ok a, s)
  | .failed e, s => (.error e, s)
  | .call request resume, s =>
    let (answer, s) := engine s request
    (resume answer).run engine s

/-! ## Small facts -/

@[simp] theorem done_bind (a : α) (f : α → Script β) : (Script.done a).bind f = f a := rfl

@[simp] theorem failed_bind (e : Fault) (f : α → Script β) :
    (Script.failed e).bind f = .failed e := rfl

@[simp] theorem bind_eq (x : Script α) (f : α → Script β) : (x >>= f) = x.bind f := rfl

@[simp] theorem pure_eq (a : α) : (pure a : Script α) = .done a := rfl

/-- A script that only goes on with its result is the same script. -/
@[simp] theorem bind_done (x : Script α) : x.bind .done = x := by
  induction x with
  | done a => rfl
  | failed e => rfl
  | call request resume ih =>
    simp only [bind]
    congr 1
    funext answer
    exact ih answer

/-- It does not matter how scripts in a row are put together. -/
theorem bind_assoc {γ : Type} (x : Script α) (f : α → Script β) (g : β → Script γ) :
    (x.bind f).bind g = x.bind fun a => (f a).bind g := by
  induction x with
  | done a => rfl
  | failed e => rfl
  | call request resume ih =>
    simp only [bind]
    congr 1
    funext answer
    exact ih answer

end Script

end StorageControl.Engine
