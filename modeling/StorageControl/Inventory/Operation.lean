/-
# Operations on the inventory

Records of every kind are created, looked up, listed, updated, deleted and measured. An operation
reads the inventory as it is when the operation begins, and makes its changes once the engine has
done its part.

A record is created at most once. When a record with its name is kept already, that record is the
result, and the engine is not asked.
-/
import StorageControl.Inventory.Nvme
import StorageControl.Inventory.Procedure
import StorageControl.Inventory.Virtio
import StorageControl.Mask

namespace StorageControl

open Engine (Script)

/-! ## The families -/

/-- The family of the records of a kind. -/
def Kind.family (registry : Attach.Registry) : (k : Kind) → Family k.Record
  | .subsystem => Subsystems.family
  | .controller => Controllers.family registry
  | .nvmeNamespace => Namespaces.family
  | .virtioBlk => VirtioBlks.family
  | .scsiController => ScsiControllers.family
  | .scsiLun => ScsiLuns.family

/-- Checks a new record and finds its place. -/
def Family.place {k : Kind} (family : Family k.Record) (fresh parent : String)
    (record : k.Record) (id : String) : Except Rejection Place := do
  let parent ← Place.parentOf k parent (family.reference record)
  family.accept record
  let id ← Place.idOf fresh id
  .ok (Place.under k parent id)

namespace Inventory

variable (registry : Attach.Registry)

/-! ## Creating -/

/-- Creates a record under a parent. Without an id it gets the fresh one. -/
def create (k : Kind) (fresh parent : String) (record : k.Record) (id : String)
    (inv : Inventory) : Procedure k.Record := do
  let family := k.family registry
  let place ← Script.check (family.place fresh parent record id)
  match inv.find? k place.name with
  | some kept => return kept
  | none =>
    let made ← family.make inv place record
    Procedure.make (.keep k place.name made)
    return made

/-! ## Looking up -/

/-- The record under a name, if a name is given and the record is kept. -/
def kept (k : Kind) (name : String) (inv : Inventory) : Script k.Record := do
  Script.check (Check.required "name" name)
  inv.demand k name

/-- A record, up to date with the engine. -/
def get (k : Kind) (name : String) (inv : Inventory) : Script k.Record := do
  let record ← inv.kept k name
  (k.family registry).refresh inv name record

/-- The counters of a record. -/
def stats (k : Kind) (name : String) (inv : Inventory) : Script ResourceStats :=
  match (k.family registry).counters with
  | .error unsupported => .failed (.unsupported (unsupported name))
  | .ok counters => do
    let record ← inv.kept k name
    let stats ← counters record
    return { name, stats }

/-! ## Listing -/

/-- Records in the order of their names. -/
def byName {ρ : Type} [Resource ρ] (records : List ρ) : List ρ :=
  records.mergeSort fun a b => decide (Resource.name a ≤ Resource.name b)

/-- A page of the records under a parent. If it is not the last one, the token of the next page is
the fresh one. -/
def list (k : Kind) (fresh : String) (request : ListRequest) (inv : Inventory) :
    Procedure (Page k.Record) := do
  let window ← Script.settle (inv.cursors.window request.pageSize request.pageToken)
  let parent ← Script.check (Place.parentOf k request.parent "")
  let records ← (k.family registry).items inv parent
  let ((items, nextPageToken), cursors) := inv.cursors.paginate fresh (byName records) window
  Procedure.make (.hand cursors)
  return { items, nextPageToken }

/-! ## Updating -/

/-- The record that an update makes of a kept one. Pinned fields keep their values. -/
def revise {ρ : Type} [Resource ρ] (kept : ρ) (request : UpdateRequest ρ) :
    Except Rejection ρ := do
  let merged ← FieldMask.merge kept request.resource request.updateMask
  match Resource.pinIdentity merged kept with
  | (held, none) => .ok held
  | (_, some path) => .error (.pinnedField path (Resource.name request.resource))

/-- Updates a record, which does not need the engine. A missing record is created under the parent
and with the id that its name holds, if that is allowed. -/
def update (k : Kind) (request : UpdateRequest k.Record) (inv : Inventory) :
    Procedure k.Record :=
  let name := Resource.name request.resource
  match (k.family registry).updateUnsupported with
  | some unsupported => .failed (.unsupported (unsupported name))
  | none => do
    Script.check (Check.nameOf k name)
    match inv.find? k name with
    | some kept =>
      let revised ← Script.check (revise kept request)
      Procedure.make (.keep k name revised)
      return revised
    | none =>
      if request.allowMissing then
        inv.create registry k "" ((Name.parent? k name).getD "") request.resource
          (Name.ownId name)
      else .failed (.unknown (.record name))

/-! ## Deleting -/

/-- Deletes a record. One that is missing counts as deleted, if that is allowed. -/
def delete (k : Kind) (request : DeleteRequest) (inv : Inventory) : Procedure Unit := do
  Script.check (Check.required "name" request.name)
  match inv.find? k request.name with
  | some record =>
    (k.family registry).release inv request.name record
    Procedure.make (.drop k request.name)
    (k.family registry).tidy record
  | none =>
    if request.allowMissing then return ()
    else .failed (.unknown (.record request.name))

end Inventory

/-! ## All operations -/

/-- What can be asked for the records of a kind. -/
inductive Operation (k : Kind) where
  | create (parent : String) (record : k.Record) (id : String)
  | get (name : String)
  | list (request : ListRequest)
  | update (request : UpdateRequest k.Record)
  | delete (request : DeleteRequest)
  | stats (name : String)

/-- The result of an operation. -/
inductive Reply (k : Kind) where
  | record (record : k.Record)
  | page (page : Page k.Record)
  | deleted
  | stats (stats : ResourceStats)
deriving DecidableEq

/-- Does an operation. The fresh text becomes the id of a record that is created without one, or
the token of the next page. -/
def Inventory.perform (registry : Attach.Registry) (fresh : String) (inv : Inventory) {k : Kind} :
    Operation k → Procedure (Reply k)
  | .create parent record id => do
    let made ← inv.create registry k fresh parent record id
    return .record made
  | .get name => do
    let record ← inv.get registry k name
    return .record record
  | .list request => do
    let page ← inv.list registry k fresh request
    return .page page
  | .update request => do
    let revised ← inv.update registry k request
    return .record revised
  | .delete request => do
    inv.delete registry k request
    return .deleted
  | .stats name => do
    let stats ← inv.stats registry k name
    return .stats stats

end StorageControl
