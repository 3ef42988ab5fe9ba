/-
# Runs

A run is one operation after another on the same inventory, against an engine that may answer in any
way. Each step is written down with what was kept before it, what happened in it and what came of
it.
-/
import StorageControl.Inventory.Operation
import StorageControl.Uuid

namespace StorageControl

open Engine (Answer Call)

/-- An operation to be done, and the random bits for the text that it may need. -/
structure Step where
  kind : Kind
  operation : Operation kind
  bits : Nat

/-- The fresh text of a step. -/
def Step.fresh (step : Step) : String :=
  Uuid.text step.bits

/-- What happens when a step is taken against an engine. -/
def Step.take {σ : Type} (registry : Attach.Registry) (engine : σ → Call → Answer × σ)
    (step : Step) (inv : Inventory) (s : σ) : Procedure.Course (Reply step.kind) σ :=
  (inv.perform registry step.fresh step.operation).run engine s

/-- A step that has been taken: what was kept before, what happened, and what came of it. -/
structure Entry where
  step : Step
  before : Inventory
  events : List Event
  result : Except Fault (Reply step.kind)

/-- What was kept after a step. -/
def Entry.after (e : Entry) : Inventory :=
  e.before.after e.events

/-- The steps that have been taken, and what is kept in the end. -/
structure Run where
  entries : List Entry
  inventory : Inventory

/-- Takes steps against an engine with a state, one after the other. -/
def Run.of {σ : Type} (registry : Attach.Registry) (engine : σ → Call → Answer × σ) :
    List Step → Inventory → σ → Run
  | [], inv, _ => ⟨[], inv⟩
  | step :: steps, inv, s =>
    let course := step.take registry engine inv s
    let rest := Run.of registry engine steps (inv.after course.events) course.engine
    { rest with entries := ⟨step, inv, course.events, course.result⟩ :: rest.entries }

end StorageControl
