/-
# Identity along a run

A record that is kept has the identity of the record that was made under its name last, whatever
updates there have been since. An update of a record that is kept is settled without the engine: it
succeeds exactly when the records can be merged and the merged one leaves the identity, and the
identity stays.
-/
import StorageControl.Proofs.Placement

namespace StorageControl

open Engine (Answer Call)

variable {registry : Attach.Registry} {inv : Inventory} {k : Kind} {name : String}

/-! ## Where a record goes back to -/

/-- In an entry a record is made under a name. It is the result of the operation, and it is kept. -/
inductive Entry.Makes (registry : Attach.Registry) (k : Kind) (name : String) (made : k.Record) :
    Entry → Prop
  | intro {op : Operation k} {bits : Nat} {before : Inventory} {events : List Event}
      {place : Place} {draft : k.Record}
      (hop : op.draft? registry (Uuid.text bits) = some (place, draft)) (hname : place.name = name)
      (hmade : Made registry before place k draft made (exchanges events))
      (hnew : before.find? k name = none)
      (hkept : (before.after events).find? k name = some made) :
      Makes registry k name made ⟨⟨k, op, bits⟩, before, events, .ok (.record made)⟩

/-- A record goes back to one that was made under its name along a run. Since then the name has been
kept all the time, and the identity is the same. -/
def Run.GoesBack (registry : Attach.Registry) (run : Run) (k : Kind) (name : String)
    (record : k.Record) : Prop :=
  ∃ earlier e later made, run.entries = earlier ++ e :: later ∧ e.Makes registry k name made ∧
    (∀ f ∈ later, (f.after.find? k name).isSome) ∧ SameIdentity k record made

/-- A record that is kept after a step continues the one before, or it is made in the step. -/
theorem Entry.origin {e : Entry}
    (h : Turn registry e.step.fresh e.before e.step.operation e.events e.result)
    {record : k.Record} (hafter : e.after.find? k name = some record) :
    (∃ kept, e.before.find? k name = some kept ∧ Continues k record kept) ∨
      e.Makes registry k name record := by
  obtain ⟨⟨kind, op, bits⟩, before, events, result⟩ := e
  by_cases hkind : k = kind
  · subst hkind
    refine (h.origin hafter).imp_right ?_
    rintro ⟨place, draft, hop, hname, hmade, hnew, hresult⟩
    change result = .ok (.record record) at hresult
    subst hresult
    exact .intro hop hname hmade hnew hafter
  · rw [after, Inventory.find?, h.table_of_ne hkind] at hafter
    exact .inl ⟨record, hafter, .refl record⟩

/-- A record that is kept after a run continues one from before the run and has been kept all the
time, or it goes back to one that was made along the run. -/
theorem Run.origin {σ : Type} {engine : σ → Call → Answer × σ} (steps : List Step) (s : σ)
    {record : k.Record}
    (hend : (Run.of registry engine steps inv s).inventory.find? k name = some record) :
    (∃ kept, inv.find? k name = some kept ∧ Continues k record kept ∧
        ∀ f ∈ (Run.of registry engine steps inv s).entries, (f.after.find? k name).isSome) ∨
      (Run.of registry engine steps inv s).GoesBack registry k name record := by
  -- By induction on the steps: the record goes back to a later step, or to the first one, or
  -- beyond it.
  induction steps generalizing inv s with
  | nil =>
    refine .inl ⟨record, hend, .refl record, ?_⟩
    intro f hf
    cases hf
  | cons step steps ih =>
    let course := step.take registry engine inv s
    let first : Entry := ⟨step, inv, course.events, course.result⟩
    have hfirst : Turn registry step.fresh inv step.operation course.events course.result :=
      turn_of_goes (Procedure.goes_run engine _ s)
    have hentries : (Run.of registry engine (step :: steps) inv s).entries =
        first :: (Run.of registry engine steps first.after course.engine).entries := rfl
    rcases @ih first.after course.engine hend with ⟨kept, hkept, hsame, hstays⟩ |
      ⟨earlier, e, later, made, hrest, hmade, hstays, hsame⟩
    · rcases Entry.origin (e := first) hfirst hkept with ⟨old, hold, hcontinues⟩ | hmade
      · refine .inl ⟨old, hold, hsame.trans hcontinues, ?_⟩
        rw [hentries]
        intro f hf
        rcases List.mem_cons.1 hf with rfl | hf
        · rw [hkept]
          rfl
        · exact hstays f hf
      · exact .inr ⟨[], first, _, kept, hentries, hmade, hstays, hsame.identity⟩
    · refine .inr ⟨first :: earlier, e, later, made, ?_, hmade, hstays, hsame⟩
      rw [hentries, hrest, List.cons_append]

/-! ## Updates of records that are kept -/

/-- Only LUNs cannot be updated. -/
theorem Kind.updateUnsupported_eq_none_iff :
    (k.family registry).updateUnsupported = none ↔ k ≠ .scsiLun := by
  cases k <;> simp [family, Subsystems.family, Controllers.family, Namespaces.family,
    VirtioBlks.family, ScsiControllers.family, ScsiLuns.family]

/-- An update of a record that is kept fails and does nothing, or it keeps the revised record. It
does not ask the engine. -/
theorem Inventory.run_update_of_kept {σ : Type} {fresh : String} (engine : σ → Call → Answer × σ)
    (s : σ) {request : UpdateRequest k.Record} {kept : k.Record}
    (hname : Check.nameOf k (Resource.name request.resource) = .ok ())
    (hkept : inv.find? k (Resource.name request.resource) = some kept) :
    (∃ e, (inv.perform registry fresh (.update request)).run engine s = ⟨[], .error e, s⟩ ∧
        (k = .scsiLun ∨ ∃ why, revise kept request = .error why)) ∨
      ∃ revised, (inv.perform registry fresh (.update request)).run engine s =
          ⟨[.changed (.keep k (Resource.name request.resource) revised)],
            .ok (.record revised), s⟩ ∧
        k ≠ .scsiLun ∧ revise kept request = .ok revised := by
  cases hsupported : (k.family registry).updateUnsupported with
  | some unsupported =>
    have hk : k = .scsiLun := by
      by_contra hk
      rw [Kind.updateUnsupported_eq_none_iff.2 hk] at hsupported
      cases hsupported
    refine .inl ⟨.unsupported (unsupported (Resource.name request.resource)), ?_, .inl hk⟩
    simp [perform, update, hsupported]
    rfl
  | none =>
    cases hrevise : revise kept request with
    | error why =>
      refine .inl ⟨.rejected why, ?_, .inr ⟨why, rfl⟩⟩
      simp [perform, update, hsupported, hname, hkept, hrevise]
      rfl
    | ok revised =>
      refine .inr ⟨revised, ?_, Kind.updateUnsupported_eq_none_iff.1 hsupported, rfl⟩
      simp [perform, update, hsupported, hname, hkept, hrevise]
      rfl

/-- How an update of a record that is kept has to go. -/
structure Inventory.SettlesUpdate {σ : Type} (inv : Inventory) (kept : k.Record)
    (request : UpdateRequest k.Record) (course : Procedure.Course (Reply k) σ) : Prop where
  /-- The engine is not asked. -/
  silent : exchanges course.events = []
  /-- The update succeeds exactly when the records can be merged and the merged one leaves the
  identity of the one that is kept. There are no updates of LUNs. -/
  succeeds : (∃ reply, course.result = .ok reply) ↔ k ≠ .scsiLun ∧ ∃ merged,
    FieldMask.merge kept request.resource request.updateMask = .ok merged ∧
      LeavesIdentity k merged kept
  /-- The merged record is the result and is kept, with the identity that there was. -/
  keeps : ∀ reply, course.result = .ok reply → ∃ merged,
    FieldMask.merge kept request.resource request.updateMask = .ok merged ∧
      reply = .record (withIdentity k merged kept) ∧
      (inv.after course.events).find? k (Resource.name request.resource) =
        some (withIdentity k merged kept) ∧
      SameIdentity k (withIdentity k merged kept) kept

/-- Under a name that passes the check every update of a record that is kept goes so. -/
theorem Inventory.settlesUpdate {σ : Type} {fresh : String} (engine : σ → Call → Answer × σ)
    (s : σ) {request : UpdateRequest k.Record} {kept : k.Record}
    (hname : Check.nameOf k (Resource.name request.resource) = .ok ())
    (hkept : inv.find? k (Resource.name request.resource) = some kept) :
    inv.SettlesUpdate kept request
      ((inv.perform registry fresh (.update request)).run engine s) := by
  rcases run_update_of_kept engine s hname hkept with ⟨e, hcourse, hwhy⟩ |
    ⟨revised, hcourse, hk, hrevise⟩
  · rw [hcourse]
    refine ⟨rfl, ⟨nofun, ?_⟩, nofun⟩
    rintro ⟨hk, merged, hmerge, hleaves⟩
    rcases hwhy with hlun | ⟨why, hrevise⟩
    · exact absurd hlun hk
    · rw [revise_eq_ok_iff.2 ⟨merged, hmerge, hleaves, rfl⟩] at hrevise
      cases hrevise
  · rw [hcourse]
    obtain ⟨merged, hmerge, hleaves, rfl⟩ := revise_eq_ok_iff.1 hrevise
    refine ⟨rfl, ⟨fun _ => ⟨hk, merged, hmerge, hleaves⟩, fun _ => ⟨_, rfl⟩⟩, ?_⟩
    rintro _ ⟨⟩
    exact ⟨merged, hmerge, rfl, inv.find?_keep_self k _ _, hleaves.sameIdentity⟩

/-! ## Runs -/

/-- The identity of what is kept at the end of a run is pinned. -/
structure Run.PinsIdentity (registry : Attach.Registry) (run : Run) : Prop where
  /-- Every record that is kept has the identity of the one that was made. -/
  made : ∀ k name record, run.inventory.find? k name = some record →
    run.GoesBack registry k name record
  /-- Every update of a record that is kept, against any engine, is settled without it. -/
  updates : ∀ {σ : Type} (engine : σ → Call → Answer × σ) (s : σ) (fresh : String) (k : Kind)
    (request : UpdateRequest k.Record) (kept : k.Record),
    run.inventory.find? k (Resource.name request.resource) = some kept →
      run.inventory.SettlesUpdate kept request
        ((run.inventory.perform registry fresh (.update request)).run engine s)

/-- Every run that begins with nothing kept pins the identity of what it keeps, whatever engine it
is against. -/
theorem run_pinsIdentity {σ : Type} (registry : Attach.Registry)
    (engine : σ → Call → Answer × σ) (steps : List Step) (s : σ) :
    (Run.of registry engine steps .empty s).PinsIdentity registry where
  made k name record hend := by
    rcases Run.origin steps s hend with ⟨kept, hkept, -⟩ | hback
    · cases k <;> cases hkept
    · exact hback
  updates engine' s' fresh k request kept hkept := by
    have hplaced := Run.placed steps s (Inventory.all_empty Placed) k _ _ hkept
    exact Inventory.settlesUpdate engine' s' hplaced.nameOf hkept

end StorageControl
