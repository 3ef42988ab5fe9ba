/-
# Parts of records and what updates say of them

An update succeeds or changes nothing. One that succeeds takes some parts of the record over from
the request and leaves the others. So a part of a record that is kept is what was said of it last
since the record was made, or what it was made with if nothing was said.
-/
import StorageControl.Proofs.Identity
import StorageControl.Proofs.Merge

namespace StorageControl

open Engine (Answer Call)

/-! ## Parts of records -/

/-- A part of the records of a kind that an update takes over as a whole, exactly when it takes over
the path. The fields that tie a record to the engine are no such parts, because they are pinned. -/
structure Part (k : Kind) (γ : Type) where
  path : List String
  get : k.Record → γ
  of_merge : ∀ {existing update merged : k.Record} {mask : Option FieldMask},
    FieldMask.merge existing update mask = .ok merged →
      get merged = if FieldMask.takes mask path then get update else get existing
  of_identity : ∀ merged stored, get (withIdentity k merged stored) = get merged

open Codec (HasField)

/-- The part of a record that is a number. -/
def Part.number {k : Kind} (path : List String) (get : k.Record → Int32)
    (hfield : (Resource.codec : Codec k.Record).HasField path .int32 get)
    (hname : ∀ name (r : k.Record), get (Resource.rename name r) = get r)
    (hidentity : ∀ merged stored, get (withIdentity k merged stored) = get merged) :
    Part k Int32 where
  path := path
  get := get
  of_merge h := FieldMask.get_of_merge hfield Codec.int32_flat Codec.int32_lawful hname h
  of_identity := hidentity

/-! ## What is said of a part -/

/-- The request of a step that is to update a record of a kind. -/
def Step.update? (k : Kind) : Step → Option (UpdateRequest k.Record)
  | ⟨kind, .update request, _⟩ => if h : kind = k then some (h ▸ request) else none
  | _ => none

@[simp] theorem Step.update?_update {k : Kind} (request : UpdateRequest k.Record) (bits : Nat) :
    update? k ⟨k, .update request, bits⟩ = some request := by
  simp [update?]

namespace Part

variable {k : Kind} {γ : Type} {name : String}

/-- What is said of a part of the record under a name in an entry: the value in the request, if the
entry is an update of the record that succeeds and takes the part over. -/
def said? (p : Part k γ) (name : String) (e : Entry) : Option γ :=
  (e.step.update? k).bind fun request =>
    if e.result.isOk ∧ Resource.name request.resource = name ∧
        FieldMask.takes request.updateMask p.path then
      some (p.get request.resource)
    else none

/-- What is said last of a part of the record under a name. -/
def lastSaid? (p : Part k γ) (name : String) (entries : List Entry) : Option γ :=
  (entries.filterMap (p.said? name)).getLast?

theorem lastSaid?_cons (p : Part k γ) (name : String) (e : Entry) (entries : List Entry) :
    p.lastSaid? name (e :: entries) = (p.lastSaid? name entries).or (p.said? name e) := by
  unfold lastSaid?
  rw [List.filterMap_cons]
  cases p.said? name e with
  | none => simp
  | some a =>
    cases hlast : (entries.filterMap (p.said? name)).getLast? <;>
      simp [List.getLast?_cons, hlast]

/-- What was said last of a part, if anything, has a property. -/
def LastSays (p : Part k γ) (name : String) (entries : List Entry) (P : γ → Prop) : Prop :=
  ∀ a, p.lastSaid? name entries = some a → P a

/-- Only updates say anything. -/
theorem said?_eq_none (p : Part k γ) {op : Operation k} {bits : Nat} {before : Inventory}
    {events : List Event} {result : Except Fault (Reply k)}
    (h : ∀ request, op = .update request → Resource.name request.resource ≠ name) :
    p.said? name ⟨⟨k, op, bits⟩, before, events, result⟩ = none := by
  cases op with
  | update request => simp [said?, h request rfl]
  | create | get | list | delete | stats => rfl

/-- Nothing is said of the records of other kinds. -/
theorem said?_of_ne (p : Part k γ) {kind : Kind} (hkind : kind ≠ k) {op : Operation kind}
    {bits : Nat} {before : Inventory} {events : List Event} {result : Except Fault (Reply kind)} :
    p.said? name ⟨⟨kind, op, bits⟩, before, events, result⟩ = none := by
  cases op with
  | update request => simp [said?, Step.update?, hkind]
  | create | get | list | delete | stats => rfl

/-- A part of a revised record is taken over from the request, or it stays. -/
theorem get_of_revise (p : Part k γ) {request : UpdateRequest k.Record}
    {kept revised : k.Record} (h : Inventory.revise kept request = .ok revised) :
    p.get revised =
      if FieldMask.takes request.updateMask p.path then p.get request.resource else p.get kept := by
  obtain ⟨merged, hmerge, -, rfl⟩ := Inventory.revise_eq_ok_iff.1 h
  rw [p.of_identity, p.of_merge hmerge]

end Part

/-! ## One step -/

section

variable {registry : Attach.Registry} {fresh : String} {inv : Inventory} {k : Kind} {γ : Type}
  {name : String}

/-- A record that is kept under a name before and after a turn is the same, or it has been updated
under that name. -/
theorem Turn.eq_or_update {op : Operation k} {events : List Event} {r : Except Fault (Reply k)}
    (h : Turn registry fresh inv op events r) {kept record : k.Record}
    (hbefore : inv.find? k name = some kept)
    (hafter : (inv.after events).find? k name = some record) :
    record = kept ∨ ∃ request, op = .update request ∧ Resource.name request.resource = name := by
  have hfate := h.fate name
  rw [hbefore, hafter] at hfate
  cases hfate with
  | stays => exact .inl rfl
  | revised hop hname => exact .inr ⟨_, hop, hname⟩

/-- A part of a record that is kept before and after an entry is what the entry says of it, or what
it was before. -/
theorem Part.get_of_goes (p : Part k γ) {e : Entry}
    (hgo : (e.before.perform registry e.step.fresh e.step.operation).Goes e.events e.result)
    {kept record : k.Record} (hbefore : e.before.find? k name = some kept)
    (hafter : e.after.find? k name = some record) :
    p.get record = (p.said? name e).getD (p.get kept) := by
  obtain ⟨⟨kind, op, bits⟩, before, events, result⟩ := e
  have hturn := turn_of_goes hgo
  by_cases hkind : kind = k
  · subst hkind
    by_cases hupdate : ∃ request, op = .update request ∧ Resource.name request.resource = name
    · obtain ⟨request, rfl, rfl⟩ := hupdate
      obtain ⟨r, hgo, hresult⟩ := Procedure.goes_map_iff.1 hgo
      rcases goes_update_of_kept hbefore hgo with ⟨hevents, why, rfl, -⟩ |
        ⟨revised, -, hrevise, rfl, hevents⟩
      · -- Nothing has been done, and what fails says nothing.
        change events = [] at hevents
        change result = .error why at hresult
        subst hevents hresult
        obtain rfl := Option.some.inj (hbefore.symm.trans hafter)
        simp [said?, Except.isOk, Except.toBool]
      · change events = _ at hevents
        change result = .ok (.record revised) at hresult
        subst hevents hresult
        obtain rfl : revised = record :=
          Option.some.inj ((Inventory.find?_keep_self before kind _ revised).symm.trans hafter)
        rw [p.get_of_revise hrevise]
        by_cases htakes : FieldMask.takes request.updateMask p.path <;>
          simp [said?, Except.isOk, Except.toBool, htakes]
    · rcases hturn.eq_or_update hbefore hafter with rfl | hsaid
      · rw [p.said?_eq_none fun request hop hname => hupdate ⟨request, hop, hname⟩]
        rfl
      · exact absurd hsaid hupdate
  · rw [Entry.after, Inventory.find?, hturn.table_of_ne (Ne.symm hkind)] at hafter
    obtain rfl := Option.some.inj (hbefore.symm.trans hafter)
    rw [p.said?_of_ne hkind]
    rfl

/-! ## Runs -/

/-- A part of a record that is kept all along a run is what was said of it last, or what it was at
the beginning. -/
theorem Run.get_eq {σ : Type} {engine : σ → Call → Answer × σ} (p : Part k γ) (steps : List Step)
    (s : σ) {kept record : k.Record} (hkept : inv.find? k name = some kept)
    (hstays : ∀ f ∈ (Run.of registry engine steps inv s).entries, (f.after.find? k name).isSome)
    (hend : (Run.of registry engine steps inv s).inventory.find? k name = some record) :
    p.get record =
      (p.lastSaid? name (Run.of registry engine steps inv s).entries).getD (p.get kept) := by
  -- By induction on the steps: the record after the first one is where the others begin.
  induction steps generalizing inv s kept with
  | nil =>
    obtain rfl := Option.some.inj (hkept.symm.trans hend)
    rfl
  | cons step steps ih =>
    let course := step.take registry engine inv s
    let first : Entry := ⟨step, inv, course.events, course.result⟩
    have hgo : (first.before.perform registry first.step.fresh first.step.operation).Goes
        first.events first.result := Procedure.goes_run engine _ s
    obtain ⟨next, hnext⟩ := Option.isSome_iff_exists.1 (hstays first List.mem_cons_self)
    have hrest : p.get record = (p.lastSaid? name
        (Run.of registry engine steps first.after course.engine).entries).getD (p.get next) :=
      ih course.engine hnext (fun f hf => hstays f (List.mem_cons_of_mem first hf)) hend
    have hentries : (Run.of registry engine (step :: steps) inv s).entries =
        first :: (Run.of registry engine steps first.after course.engine).entries := rfl
    rw [hrest, p.get_of_goes hgo hkept hnext, hentries, Part.lastSaid?_cons]
    cases p.lastSaid? name (Run.of registry engine steps first.after course.engine).entries <;> rfl

/-- A record has its history in a run: in an entry `e` it was made as `made`, and it has been kept
under its name in all the entries `later`. -/
structure Run.History (registry : Attach.Registry) (run : Run) (k : Kind) (name : String)
    (record : k.Record) (e : Entry) (made : k.Record) (later : List Entry) : Prop where
  split : ∃ earlier, run.entries = earlier ++ e :: later
  makes : e.Makes registry k name made
  goes : (e.before.perform registry e.step.fresh e.step.operation).Goes e.events e.result
  stays : ∀ f ∈ later, (f.after.find? k name).isSome
  identity : SameIdentity k record made
  /-- Each part is what was said of it last since the record was made, or what it was made with. -/
  part : ∀ {γ : Type} (p : Part k γ), p.get record = (p.lastSaid? name later).getD (p.get made)

/-- Every record that is kept after a run that begins with nothing kept has a history in it. -/
theorem Run.exists_history {σ : Type} {engine : σ → Call → Answer × σ} (steps : List Step) (s : σ)
    {record : k.Record}
    (hend : (Run.of registry engine steps .empty s).inventory.find? k name = some record) :
    ∃ e made later,
      (Run.of registry engine steps .empty s).History registry k name record e made later := by
  have hback : (Run.of registry engine steps .empty s).GoesBack registry k name record := by
    rcases Run.origin steps s hend with ⟨kept, hkept, -⟩ | hback
    · cases k <;> cases hkept
    · exact hback
  obtain ⟨earlier, e, later, made, hentries, hmakes, hstays, hidentity⟩ := hback
  obtain ⟨-, rest, s', -, hgoes, rfl, hinventory⟩ := Run.split hentries
  rw [hinventory] at hend
  have hmade : e.after.find? k name = some made := by
    cases hmakes with
    | intro hop hname hmade hnew hkept => exact hkept
  exact ⟨e, made, _, ⟨earlier, hentries⟩, hmakes, hgoes, hstays, hidentity,
    fun p => Run.get_eq p rest s' hmade hstays hend⟩

/-- A part that had a property when the record was made has it exactly if what was said of it last
has it. -/
theorem Run.History.part_iff {run : Run} {record made : k.Record} {e : Entry} {later : List Entry}
    (h : run.History registry k name record e made later) (p : Part k γ) (P : γ → Prop)
    (hmade : P (p.get made)) : P (p.get record) ↔ p.LastSays name later P := by
  rw [h.part p, Part.LastSays]
  cases p.lastSaid? name later with
  | none => simp [hmade]
  | some a => simp

end

end StorageControl
