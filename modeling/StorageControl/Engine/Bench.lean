/-
# A bench for operations

A simulated engine whose answers can be prepared. For each method some outcomes can be lined up,
each of which is used once, and one can be set that is used from then on. Every call is recorded.
-/
import StorageControl.Engine.Simulation

namespace StorageControl.Engine

/-! ## Prepared outcomes -/

/-- A call by the name of its method, which need not be one. -/
structure NamedCall where
  method : String
  params : Option Json
deriving DecidableEq, Repr

/-- An outcome that is lined up: an answer, or leave to go on to the engine. -/
inductive Prepared where
  | answer (answer : Answer)
  | pass
deriving Inhabited

/-- An engine with prepared outcomes. `calls` are all calls so far and `seen` are those that were
not answered from a line, both with the last one first. -/
structure Bench where
  engine : Simulation := .start
  fixed : Table Answer := {}
  lined : Table (List Prepared) := {}
  calls : List NamedCall := []
  seen : List NamedCall := []
deriving Inhabited

namespace Bench

/-- An engine that has just been started, with nothing prepared. -/
def start : Bench := {}

/-- Answers every further call of a method in the same way. -/
def fix (b : Bench) (method : String) (answer : Answer) : Bench :=
  { b with fixed := b.fixed.insert method answer }

/-- Lines up outcomes for the next calls of a method. -/
def line (b : Bench) (method : String) (outcomes : List Prepared) : Bench :=
  { b with lined := b.lined.insert method ((b.lined.find? method).getD [] ++ outcomes) }

/-- Drops all prepared outcomes. -/
def unprepare (b : Bench) : Bench :=
  { b with fixed := {}, lined := {} }

/-! ## Calls -/

/-- The engine's own answer to a call. -/
def ask (b : Bench) (call : NamedCall) : Answer × Bench :=
  match Method.ofName? call.method with
  | none => (.error (Simulation.unknownMethod call.method), b)
  | some method =>
    let (answer, engine) := b.engine.answer ⟨method, call.params⟩
    (answer, { b with engine })

/-- The answer to a call that no line holds an answer for. -/
def pass (b : Bench) (call : NamedCall) : Answer × Bench :=
  let b := { b with seen := call :: b.seen }
  match b.fixed.find? call.method with
  | some answer => (answer, b)
  | none => b.ask call

/-- Answers a call by the name of its method. -/
def answerNamed (b : Bench) (call : NamedCall) : Answer × Bench :=
  let b := { b with calls := call :: b.calls }
  match b.lined.find? call.method with
  | some (next :: rest) =>
    let b := { b with lined := b.lined.insert call.method rest }
    match next with
    | .answer answer => (answer, b)
    | .pass => b.pass call
  | _ => b.pass call

/-- Answers a call. -/
def answer (b : Bench) (call : Call) : Answer × Bench :=
  b.answerNamed ⟨call.method.name, call.params⟩

/-- Runs a script against the bench. -/
def run {α : Type} (b : Bench) (script : Script α) : Except Fault α × Bench :=
  script.run answer b

/-! ## Counts -/

/-- The calls of a method that were seen, with the last one first. -/
def seenOf (b : Bench) (method : String) : List NamedCall :=
  b.seen.filter (·.method == method)

end Bench

end StorageControl.Engine
