/-
# The inventory

The records that are kept, one table for each kind, and the page tokens handed out so far.
-/
import StorageControl.Paging
import StorageControl.Record

namespace StorageControl

/-! ## The tables -/

/-- Every record that is kept, under its name, and the page tokens. -/
structure Inventory where
  subsystems : Table Subsystem := {}
  controllers : Table Controller := {}
  namespaces : Table NvmeNamespace := {}
  virtioBlks : Table VirtioBlk := {}
  scsiControllers : Table ScsiController := {}
  scsiLuns : Table ScsiLun := {}
  cursors : Cursors := {}
deriving Inhabited

namespace Inventory

/-- Nothing is kept. -/
def empty : Inventory := {}

/-- The records of a kind. -/
def table (inv : Inventory) : (k : Kind) → Table k.Record
  | .subsystem => inv.subsystems
  | .controller => inv.controllers
  | .nvmeNamespace => inv.namespaces
  | .virtioBlk => inv.virtioBlks
  | .scsiController => inv.scsiControllers
  | .scsiLun => inv.scsiLuns

/-- Replaces the records of a kind. -/
def withTable (inv : Inventory) : (k : Kind) → Table k.Record → Inventory
  | .subsystem, t => { inv with subsystems := t }
  | .controller, t => { inv with controllers := t }
  | .nvmeNamespace, t => { inv with namespaces := t }
  | .virtioBlk, t => { inv with virtioBlks := t }
  | .scsiController, t => { inv with scsiControllers := t }
  | .scsiLun, t => { inv with scsiLuns := t }

/-- The record of a kind under a name. -/
def find? (inv : Inventory) (k : Kind) (name : String) : Option k.Record :=
  (inv.table k).find? name

/-- Keeps a record under a name. -/
def keep (inv : Inventory) (k : Kind) (name : String) (record : k.Record) : Inventory :=
  inv.withTable k ((inv.table k).insert name record)

/-- Drops the record under a name. -/
def drop (inv : Inventory) (k : Kind) (name : String) : Inventory :=
  inv.withTable k ((inv.table k).erase name)

/-! ## What the tables hold afterwards -/

/-- The records of a kind are those that were put there. -/
@[simp] theorem table_withTable_self (inv : Inventory) (k : Kind) (t : Table k.Record) :
    (inv.withTable k t).table k = t := by
  cases k <;> rfl

/-- The records of the other kinds stay. -/
theorem table_withTable_of_ne (inv : Inventory) {k j : Kind} (h : j ≠ k) (t : Table k.Record) :
    (inv.withTable k t).table j = inv.table j := by
  cases k <;> cases j <;> first | rfl | exact absurd rfl h

/-- Replacing records leaves the page tokens alone. -/
@[simp] theorem cursors_withTable (inv : Inventory) (k : Kind) (t : Table k.Record) :
    (inv.withTable k t).cursors = inv.cursors := by
  cases k <;> rfl

/-- Inventories with the same records and the same page tokens are equal. -/
theorem ext_table {i j : Inventory} (h : ∀ k, i.table k = j.table k)
    (hc : i.cursors = j.cursors) : i = j := by
  have h₁ := h .subsystem
  have h₂ := h .controller
  have h₃ := h .nvmeNamespace
  have h₄ := h .virtioBlk
  have h₅ := h .scsiController
  have h₆ := h .scsiLun
  cases i
  cases j
  simp_all [table]

/-- A record that is kept is found. -/
@[simp] theorem find?_keep_self (inv : Inventory) (k : Kind) (name : String)
    (record : k.Record) : (inv.keep k name record).find? k name = some record := by
  simp [find?, keep]

/-- A record that is dropped is not found. -/
@[simp] theorem find?_drop_self (inv : Inventory) (k : Kind) (name : String) :
    (inv.drop k name).find? k name = none := by
  simp [find?, drop]

/-- Keeping a record leaves the other names of its kind alone. -/
theorem find?_keep_of_ne (inv : Inventory) {k : Kind} {name other : String} (h : other ≠ name)
    (record : k.Record) : (inv.keep k name record).find? k other = inv.find? k other := by
  rw [find?, keep, table_withTable_self, Table.find?_insert_of_ne _ h, find?]

/-- Keeping a record leaves the other kinds alone. -/
theorem table_keep_of_ne (inv : Inventory) {k j : Kind} (h : j ≠ k) (name : String)
    (record : k.Record) : (inv.keep k name record).table j = inv.table j :=
  inv.table_withTable_of_ne h _

@[simp] theorem cursors_keep (inv : Inventory) (k : Kind) (name : String) (record : k.Record) :
    (inv.keep k name record).cursors = inv.cursors :=
  inv.cursors_withTable k _

/-- Dropping a record leaves the other names of its kind alone. -/
theorem find?_drop_of_ne (inv : Inventory) {k : Kind} {name other : String} (h : other ≠ name) :
    (inv.drop k name).find? k other = inv.find? k other := by
  rw [find?, drop, table_withTable_self, Table.find?_erase_of_ne _ h, find?]

/-- Dropping a record leaves the other kinds alone. -/
theorem table_drop_of_ne (inv : Inventory) {k j : Kind} (h : j ≠ k) (name : String) :
    (inv.drop k name).table j = inv.table j :=
  inv.table_withTable_of_ne h _

@[simp] theorem cursors_drop (inv : Inventory) (k : Kind) (name : String) :
    (inv.drop k name).cursors = inv.cursors :=
  inv.cursors_withTable k _

end Inventory

end StorageControl
