/-
# The inventory and the simulated engine

A world is an inventory together with the engine whose objects its records stand for. It begins with
nothing kept and an engine that has just been started, and it changes by operations on the
inventory. Volumes are put into the engine from outside.
-/
import StorageControl.Engine.Query
import StorageControl.Engine.Simulation
import StorageControl.Inventory.Run

namespace StorageControl

open Engine (Simulation VolumeRow)

/-- What is kept, and the engine that it is kept for. -/
structure World where
  inventory : Inventory := .empty
  engine : Simulation := .start

namespace World

/-- What can happen in a world: an operation on the inventory, a question for the version of the
engine, or a volume that is put there. -/
inductive Action where
  | take (step : Step)
  | version
  | put (volume : VolumeRow)

/-- The world after an action. -/
def act (registry : Attach.Registry) (w : World) : Action → World
  | .take step =>
    let course := step.take registry Simulation.answer w.inventory w.engine
    { inventory := w.inventory.after course.events, engine := course.engine }
  | .version => { w with engine := (Engine.version.run Simulation.answer w.engine).2 }
  | .put volume => { w with engine := w.engine.putVolume volume }

/-- What comes of a step that is taken in a world. -/
def result (registry : Attach.Registry) (w : World) (step : Step) :
    Except Fault (Reply step.kind) :=
  (step.take registry Simulation.answer w.inventory w.engine).result

/-- The world after actions, from the beginning. -/
def after (registry : Attach.Registry) (actions : List Action) : World :=
  actions.foldl (act registry) {}

end World

end StorageControl
