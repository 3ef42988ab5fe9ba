/-
# Where kept records come from

Every record that is kept was made in a step and has only been revised since, and an update leaves
its name and its identity. So what holds of the records that are made and depends on nothing else
holds of all records that are kept, along every run and whatever the engine answers.
-/
import StorageControl.Proofs.Journal
import StorageControl.Proofs.Revision

namespace StorageControl

open Engine (Answer Call)

variable {registry : Attach.Registry} {fresh : String} {inv : Inventory} {k : Kind}

/-! ## Made records -/

/-- A made record has the name of its place. -/
theorem Made.name_eq {place : Place} {draft made : k.Record} {t : List Exchange}
    (h : Made registry inv place k draft made t) : Resource.name made = place.name := by
  cases h <;> rfl

/-- A record of a nested kind is made under a parent that is kept. -/
theorem Made.parent_kept {owner : Kind} (hk : k.parent? = some owner) {place : Place}
    {draft made : k.Record} {t : List Exchange} (h : Made registry inv place k draft made t) :
    ∃ parent, inv.find? owner place.parent = some parent := by
  cases h with
  | subsystem | virtioBlk | scsiController => cases hk
  | controller hparent | nvmeNamespace hparent | scsiLun hparent =>
    cases hk
    exact ⟨_, hparent⟩

/-! ## Revised records -/

/-- A record continues another one when it has its name and its identity. -/
structure Continues (k : Kind) (record kept : k.Record) : Prop where
  name : Resource.name record = Resource.name kept
  identity : SameIdentity k record kept

theorem Continues.refl (record : k.Record) : Continues k record record :=
  ⟨rfl, .refl k record⟩

theorem Continues.trans {record kept first : k.Record} (h : Continues k record kept)
    (h' : Continues k kept first) : Continues k record first :=
  ⟨h.name.trans h'.name, h.identity.trans h'.identity⟩

/-- A revised record continues the one before. -/
theorem Inventory.continues_of_revise {request : UpdateRequest k.Record} {kept revised : k.Record}
    (h : revise kept request = .ok revised) : Continues k revised kept :=
  ⟨name_of_revise h, sameIdentity_of_revise h⟩

/-! ## Turns -/

/-- A record that is kept after a turn continues the one before, or it is made in the turn. -/
theorem Turn.origin {op : Operation k} {events : List Event} {r : Except Fault (Reply k)}
    (h : Turn registry fresh inv op events r) {name : String} {record : k.Record}
    (hafter : (inv.after events).find? k name = some record) :
    (∃ kept, inv.find? k name = some kept ∧ Continues k record kept) ∨
      ∃ place draft, op.draft? registry fresh = some (place, draft) ∧ place.name = name ∧
        Made registry inv place k draft record (exchanges events) ∧
        inv.find? k name = none ∧ r = .ok (.record record) := by
  have hfate := h.fate name
  rw [hafter] at hfate
  generalize hbefore : inv.find? k name = before at hfate
  cases hfate with
  | stays => exact .inl ⟨record, rfl, .refl record⟩
  | comes hop hname ht hresult => exact .inr ⟨_, _, hop, hname, ht, rfl, hresult⟩
  | revised hop hname hrevise => exact .inl ⟨_, rfl, Inventory.continues_of_revise hrevise⟩

/-- A property holds of every record that is kept. -/
def Inventory.All (inv : Inventory) (Q : (k : Kind) → String → k.Record → Prop) : Prop :=
  ∀ k name record, inv.find? k name = some record → Q k name record

theorem Inventory.all_empty (Q : (k : Kind) → String → k.Record → Prop) : empty.All Q := by
  intro k name record h
  cases k <;> cases h

/-- A property that goes on to the records that continue others holds of all records after a turn,
if it held of all before and holds of the one that is made. -/
theorem Turn.all {Q : (k : Kind) → String → k.Record → Prop} {op : Operation k}
    {events : List Event} {r : Except Fault (Reply k)} (h : Turn registry fresh inv op events r)
    (hinv : inv.All Q)
    (hmade : ∀ {place : Place} {draft made : k.Record},
      op.draft? registry fresh = some (place, draft) →
        Made registry inv place k draft made (exchanges events) → Q k place.name made)
    (hcontinues : ∀ {name : String} {record kept : k.Record},
      Continues k record kept → Q k name kept → Q k name record) :
    (inv.after events).All Q := by
  intro j name record hafter
  by_cases hj : j = k
  · subst hj
    rcases h.origin hafter with ⟨kept, hkept, hrecord⟩ | ⟨place, draft, hop, rfl, ht, -, -⟩
    · exact hcontinues hrecord (hinv j name kept hkept)
    · exact hmade hop ht
  · rw [Inventory.find?, h.table_of_ne hj] at hafter
    exact hinv j name record hafter

/-! ## Runs -/

/-- What every turn preserves holds after a run, if it holds before. -/
theorem Run.invariant {σ : Type} {P : Inventory → Prop} {engine : σ → Call → Answer × σ}
    (hturn : ∀ {inv : Inventory} {step : Step} {events : List Event}
      {r : Except Fault (Reply step.kind)}, P inv →
        Turn registry step.fresh inv step.operation events r → P (inv.after events))
    (steps : List Step) (s : σ) (hinv : P inv) :
    P (Run.of registry engine steps inv s).inventory := by
  induction steps generalizing inv s with
  | nil => exact hinv
  | cons step steps ih =>
    have hfirst := turn_of_goes (Procedure.goes_run engine
      (inv.perform registry step.fresh step.operation) s)
    exact ih _ (hturn hinv hfirst)

/-- At each of its entries a run splits into the run before it and the run after it. -/
theorem Run.split {σ : Type} {engine : σ → Call → Answer × σ} {steps : List Step} {s : σ}
    {earlier later : List Entry} {e : Entry}
    (h : (Run.of registry engine steps inv s).entries = earlier ++ e :: later) :
    ∃ first rest s', e.before = (Run.of registry engine first inv s).inventory ∧
      (e.before.perform registry e.step.fresh e.step.operation).Goes e.events e.result ∧
      later = (Run.of registry engine rest e.after s').entries ∧
      (Run.of registry engine steps inv s).inventory =
        (Run.of registry engine rest e.after s').inventory := by
  induction steps generalizing inv s earlier with
  | nil => simp [Run.of] at h
  | cons step steps ih =>
    cases earlier with
    | nil =>
      obtain ⟨rfl, rfl⟩ := List.cons.inj h
      exact ⟨[], steps, _, rfl, Procedure.goes_run engine _ s, rfl, rfl⟩
    | cons first earlier =>
      obtain ⟨first', rest, s', hbefore, hgo, hlater, hinventory⟩ := ih (List.cons.inj h).2
      exact ⟨step :: first', rest, s', hbefore, hgo, hlater, hinventory⟩

end StorageControl
