/-
# Families of records

The records of every kind are created, looked up, listed, changed and deleted in the same way.
What differs is gathered here: what is checked in a new record, and what is asked of the engine.
A family reads the inventory but never changes it.
-/
import StorageControl.Check
import StorageControl.Engine.Query
import StorageControl.Inventory

namespace StorageControl

open Engine (Script)

/-! ## Places -/

/-- Where a new record belongs: the name of its parent, its id, and the name that these make. -/
structure Place where
  parent : String
  id : String
  name : String
deriving DecidableEq, Repr

/-- The parent of a record: the one that the caller names, or else the one that the record refers
to. A kind without parent has the empty one. -/
def Place.parentOf (k : Kind) (explicit reference : String) : Except Rejection String :=
  match k.parent? with
  | none => .ok ""
  | some owner => do
    let parent := if explicit.isEmpty then reference else explicit
    Check.required "parent" parent
    Check.nameOf owner parent
    .ok parent

/-- The caller's id, or a fresh one if the caller has none. -/
def Place.idOf (fresh requested : String) : Except Rejection String :=
  if requested.isEmpty then .ok fresh
  else do
    Check.id requested
    .ok requested

/-- The id of the parent in a parent's name. -/
def Place.parentId (k : Kind) (parent : String) : String :=
  match k.parent? with
  | none => ""
  | some owner => Name.idIn parent owner.collection

/-- The place of a record with the given parent and id. -/
def Place.under (k : Kind) (parent id : String) : Place where
  parent := parent
  id := id
  name := Name.compose k (Place.parentId k parent) id

/-! ## Families -/

/-- What is particular to the records of a kind. -/
structure Family (ρ : Type) where
  /-- The parent that a record refers to. -/
  reference : ρ → String := fun _ => ""
  /-- What is checked in a new record. -/
  accept : ρ → Except Rejection Unit := fun _ => .ok ()
  /-- Makes what the engine needs for a new record, and gives the record to be kept. -/
  make : Inventory → Place → ρ → Script ρ
  /-- Brings a record that is kept under a name up to date with the engine. -/
  refresh : Inventory → String → ρ → Script ρ
  /-- Lists the children of a parent as the engine knows them. -/
  items : Inventory → String → Script (List ρ)
  /-- Removes what the engine has for the record under a name. -/
  release : Inventory → String → ρ → Script Unit
  /-- What is left to do when a record has been dropped. -/
  tidy : ρ → Script Unit := fun _ => .done ()
  /-- Why records cannot be updated, if they cannot. -/
  updateUnsupported : Option (String → Unsupported) := none
  /-- The counters of a record, or why there are none. -/
  counters : Except (String → Unsupported) (ρ → Script VolumeStats)

/-! ## Parents -/

/-- The record under a name, which must be there. -/
def Inventory.demand (inv : Inventory) (k : Kind) (name : String) : Script k.Record :=
  Script.demand (.unknown (.record name)) (inv.find? k name)

end StorageControl
