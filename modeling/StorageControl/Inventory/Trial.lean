/-
# The inventory on the bench

A trial is an inventory over a bench on which the answers to one method can be prepared, to see what
comes of it when the engine declines that method or refuses it. All other methods are answered by
the simulated engine.
-/
import StorageControl.Engine.Bench
import StorageControl.Engine.Query
import StorageControl.Inventory.Run

namespace StorageControl

open Engine (Answer Bench Method Prepared VolumeRow)

/-- What is kept, and the bench that it is kept for. -/
structure Trial where
  inventory : Inventory := .empty
  bench : Bench := .start

namespace Trial

/-- What can happen in a trial: an operation on the inventory, a question for the version of the
engine, a volume that is put there, and the preparation of answers. -/
inductive Action where
  | take (step : Step)
  | version
  | put (volume : VolumeRow)
  | fix (answer : Answer)
  | line (outcomes : List Prepared)
  | unprepare

/-- The trial after an action, where `m` is the method whose answers can be prepared. -/
def act (registry : Attach.Registry) (m : Method) (t : Trial) : Action → Trial
  | .take step =>
    let course := step.take registry Bench.answer t.inventory t.bench
    { inventory := t.inventory.after course.events, bench := course.engine }
  | .version => { t with bench := (t.bench.run Engine.version).2 }
  | .put volume => { t with bench := { t.bench with engine := t.bench.engine.putVolume volume } }
  | .fix answer => { t with bench := t.bench.fix m.name answer }
  | .line outcomes => { t with bench := t.bench.line m.name outcomes }
  | .unprepare => { t with bench := t.bench.unprepare }

/-- The trial after actions, from the beginning. -/
def after (registry : Attach.Registry) (m : Method) (actions : List Action) : Trial :=
  actions.foldl (act registry m) {}

end Trial

end StorageControl
