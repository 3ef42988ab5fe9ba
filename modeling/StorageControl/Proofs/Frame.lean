/-
# What operations leave alone

An operation that fails leaves the inventory as it was, whatever the engine answers and however far
the operation got. One that succeeds changes no more than what it is about: reading changes nothing,
listing hands out at most one page token, and the others touch one name of one kind.
-/
import StorageControl.Proofs.Operation

namespace StorageControl

open Engine (Answer Call)

variable {registry : Attach.Registry} {fresh : String} {inv : Inventory} {k : Kind}

/-- All that an operation may have changed when it has been done. -/
def Operation.Frame (registry : Attach.Registry) (fresh : String) (inv inv' : Inventory)
    (op : Operation k) : Prop :=
  match op with
  | .get _ | .stats _ => inv' = inv
  | .list _ =>
    (∀ j, inv'.table j = inv.table j) ∧
      (inv'.cursors = inv.cursors ∨ ∃ offset, inv'.cursors = inv.cursors.insert fresh offset)
  | .create .. | .update _ | .delete _ =>
    inv'.cursors = inv.cursors ∧ (∀ j, j ≠ k → inv'.table j = inv.table j) ∧
      ∀ name, op.subject? registry fresh ≠ some name → inv'.find? k name = inv.find? k name

namespace Operation.Frame

/-- An operation may change nothing. -/
theorem refl (op : Operation k) : op.Frame registry fresh inv inv := by
  cases op <;> simp [Frame]

/-- An operation may keep a record under the name that it is about. -/
theorem keep {op : Operation k} {name : String} (h : op.subject? registry fresh = some name)
    (record : k.Record) : op.Frame registry fresh inv (inv.keep k name record) := by
  have hother (other : String) (hne : op.subject? registry fresh ≠ some other) :
      (inv.keep k name record).find? k other = inv.find? k other := by
    apply inv.find?_keep_of_ne
    rintro rfl
    exact hne h
  cases op with
  | create | update | delete =>
    exact ⟨inv.cursors_keep k name record,
      fun j hj => inv.table_keep_of_ne hj name record, hother⟩
  | get | list | stats => cases h

/-- An operation may drop the record under the name that it is about. -/
theorem drop {op : Operation k} {name : String} (h : op.subject? registry fresh = some name) :
    op.Frame registry fresh inv (inv.drop k name) := by
  have hother (other : String) (hne : op.subject? registry fresh ≠ some other) :
      (inv.drop k name).find? k other = inv.find? k other := by
    apply inv.find?_drop_of_ne
    rintro rfl
    exact hne h
  cases op with
  | create | update | delete =>
    exact ⟨inv.cursors_drop k name, fun j hj => inv.table_drop_of_ne hj name, hother⟩
  | get | list | stats => cases h

end Operation.Frame

namespace Turn

variable {op : Operation k} {events : List Event}

/-- A turn that fails changes nothing. -/
theorem after_of_error {e : Fault} (h : Turn registry fresh inv op events (.error e)) :
    inv.after events = inv := by
  cases h with
  | idle _ => exact inv.after_map_asked _
  | unmade _ _ _ => exact inv.after_map_asked _
  | held _ _ _ => rfl

/-- A turn that succeeds stays within its frame. -/
theorem frame_of_ok {reply : Reply k} (h : Turn registry fresh inv op events (.ok reply)) :
    op.Frame registry fresh inv (inv.after events) := by
  cases h with
  | idle _ =>
    rw [inv.after_map_asked]
    exact Operation.Frame.refl op
  | paged _ hcursors =>
    rw [Inventory.after_append, inv.after_map_asked]
    refine ⟨fun j => ?_, hcursors⟩
    cases j <;> rfl
  | made hop _ _ =>
    rw [Inventory.after_append, inv.after_map_asked]
    exact Operation.Frame.keep (Operation.subject?_of_draft? hop) _
  | revised _ _ _ => exact Operation.Frame.keep rfl _
  | dropped _ _ _ =>
    rw [Inventory.after_asked, Inventory.after_changed, Inventory.after_map_asked]
    exact Operation.Frame.drop rfl

/-- The records of the other kinds stay in every turn. -/
theorem table_of_ne {r : Except Fault (Reply k)} (h : Turn registry fresh inv op events r)
    {j : Kind} (hj : j ≠ k) : (inv.after events).table j = inv.table j := by
  cases r with
  | error e => rw [h.after_of_error]
  | ok reply =>
    have hframe := h.frame_of_ok
    cases op with
    | create | update | delete => exact hframe.2.1 j hj
    | list => exact hframe.1 j
    | get | stats => rw [hframe]

end Turn

/-- An operation that fails has changed nothing, and one that succeeds has changed no more than
what it is about. This holds for every inventory, and whatever engine is behind the operation. -/
theorem perform_frame {σ : Type} (registry : Attach.Registry) (engine : σ → Call → Answer × σ)
    (s : σ) (fresh : String) (inv : Inventory) (op : Operation k) :
    match (inv.perform registry fresh op).run engine s with
    | ⟨events, .error _, _⟩ => inv.after events = inv
    | ⟨events, .ok _, _⟩ => op.Frame registry fresh inv (inv.after events) := by
  have hturn := turn_of_goes (Procedure.goes_run engine (inv.perform registry fresh op) s)
  generalize (inv.perform registry fresh op).run engine s = course at hturn ⊢
  obtain ⟨events, result, s'⟩ := course
  cases result with
  | error e => exact hturn.after_of_error
  | ok reply => exact hturn.frame_of_ok

end StorageControl
