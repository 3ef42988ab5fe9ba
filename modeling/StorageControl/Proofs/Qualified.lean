/-
# Qualified names of subsystems

The engine knows a subsystem by its qualified name alone. So each subsystem that is kept has a
well-formed one, and no two have the same: a new subsystem takes a name that nobody has, and an
update leaves the name.
-/
import StorageControl.Proofs.Contents
import StorageControl.Proofs.Provenance

namespace StorageControl

open Engine (Answer Call)

/-! ## One subsystem -/

/-- The qualified names of a subsystem and its host are well formed. -/
structure Subsystem.Qualified (s : Subsystem) : Prop where
  nqn : Check.nqn s.spec.nqn = .ok ()
  host : ∀ host, s.spec.hostnqn = some host → Check.nqn host = .ok ()

theorem Subsystems.qualified_of_accept {s : Subsystem} (h : accept s = .ok ()) : s.Qualified := by
  obtain ⟨_, hnqn, hhost⟩ := Check.bind_eq_ok_iff.1 h
  refine ⟨hnqn, fun host hs => ?_⟩
  simpa only [hs] using hhost

/-- Subsystems with the same identity have the same qualified names. -/
theorem Subsystem.SameIdentity.qualified {s stored : Subsystem} (h : s.SameIdentity stored)
    (hstored : stored.Qualified) : s.Qualified where
  nqn := by rw [h.nqn]; exact hstored.nqn
  host := by rw [h.hostnqn]; exact hstored.host

/-- A qualified name that passes the check is not the one of a subsystem that is kept. -/
theorem Subsystems.nqn_ne_of_checkUnowned {inv : Inventory} {nqn name : String} {s : Subsystem}
    (h : checkUnowned inv nqn = .ok ()) (hkept : inv.find? .subsystem name = some s) :
    s.spec.nqn ≠ nqn := by
  unfold checkUnowned at h
  split at h
  · cases h
  · rename_i hnone
    have hother := List.find?_eq_none.1 hnone s (Table.mem_values_of_find? hkept)
    simpa using hother

/-- A new subsystem has the names of its draft, and nobody has its qualified name. -/
theorem Made.subsystem_spec {registry : Attach.Registry} {inv : Inventory} {place : Place}
    {draft made : Subsystem} {t : List Exchange}
    (h : Made registry inv place .subsystem draft made t) :
    made.spec = draft.spec ∧ Subsystems.checkUnowned inv made.spec.nqn = .ok () := by
  cases h with
  | subsystem _ hunowned => exact ⟨rfl, hunowned⟩

/-! ## All subsystems -/

/-- The subsystems that are kept have well-formed qualified names, no two the same. -/
structure Inventory.Qualified (inv : Inventory) : Prop where
  wellFormed : ∀ {name : String} {s : Subsystem}, inv.find? .subsystem name = some s → s.Qualified
  distinct : ∀ {name other : String} {s q : Subsystem}, inv.find? .subsystem name = some s →
    inv.find? .subsystem other = some q → s.spec.nqn = q.spec.nqn → name = other

theorem Inventory.qualified_empty : empty.Qualified where
  wellFormed h := by cases h
  distinct h := by cases h

/-- Only the subsystems matter. -/
theorem Inventory.Qualified.of_table_eq {inv inv' : Inventory} (h : inv.Qualified)
    (htable : inv'.table .subsystem = inv.table .subsystem) : inv'.Qualified where
  wellFormed hs := by
    rw [find?, htable] at hs
    exact h.wellFormed hs
  distinct hs hq := by
    rw [find?, htable] at hs hq
    exact h.distinct hs hq

/-- An operation on subsystems leaves their qualified names well formed and different. -/
theorem Turn.qualified_of_subsystem {registry : Attach.Registry} {bits : Nat} {inv : Inventory}
    {op : Operation .subsystem} {events : List Event} {r : Except Fault (Reply .subsystem)}
    (h : Turn registry (Uuid.text bits) inv op events r) (hinv : inv.Qualified) :
    (inv.after events).Qualified where
  wellFormed {name s} hs := by
    rcases h.origin hs with ⟨kept, hkept, hsame⟩ | ⟨place, draft, hop, -, hmade, -, -⟩
    · exact hsame.identity.qualified (hinv.wellFormed hkept)
    · have hdraft := Subsystems.qualified_of_accept (Operation.placed_of_draft? hop).2.2
      have hspec := hmade.subsystem_spec.1
      exact ⟨by rw [hspec]; exact hdraft.nqn, by rw [hspec]; exact hdraft.host⟩
  distinct {name other s q} hs hq hnqn := by
    -- Two old names were different before, a new one is nobody's, and at most one name is new.
    rcases h.origin hs with ⟨kept, hkept, hsame⟩ | ⟨place, draft, hop, hname, hmade, -, -⟩ <;>
      rcases h.origin hq with ⟨kept', hkept', hsame'⟩ | ⟨place', draft', hop', hname', hmade', -, -⟩
    · apply hinv.distinct hkept hkept'
      rw [← hsame.identity.nqn, hnqn, hsame'.identity.nqn]
    · have hne := Subsystems.nqn_ne_of_checkUnowned hmade'.subsystem_spec.2 hkept
      exact absurd (hsame.identity.nqn.symm.trans hnqn) hne
    · have hne := Subsystems.nqn_ne_of_checkUnowned hmade.subsystem_spec.2 hkept'
      exact absurd (hsame'.identity.nqn.symm.trans hnqn.symm) hne
    · rw [hop] at hop'
      cases hop'
      exact hname.symm.trans hname'

theorem Turn.qualified {registry : Attach.Registry} {bits : Nat} {inv : Inventory} {k : Kind}
    {op : Operation k} {events : List Event} {r : Except Fault (Reply k)}
    (h : Turn registry (Uuid.text bits) inv op events r) (hinv : inv.Qualified) :
    (inv.after events).Qualified := by
  by_cases hk : k = .subsystem
  · subst hk
    exact h.qualified_of_subsystem hinv
  · exact hinv.of_table_eq (h.table_of_ne (Ne.symm hk))

/-- After every run that begins with nothing kept, whatever engine it is against, the qualified
names of the subsystems that are kept are well formed, and no two are the same. -/
theorem run_qualified {σ : Type} (registry : Attach.Registry) (engine : σ → Call → Answer × σ)
    (steps : List Step) (s : σ) : (Run.of registry engine steps .empty s).inventory.Qualified :=
  Run.invariant (fun hinv hturn => Turn.qualified hturn hinv) steps s Inventory.qualified_empty

end StorageControl
