/-
# Creating a record again

A creation looks at the records that are kept before it asks the engine. So once it has returned a
record, it can be repeated: the record that is kept is returned as it is, and the engine is not
asked. Only the deletion of the name ends this. The record in the repeated request does not matter
beyond the checks of its family, and neither does what has happened to the parent.
-/
import StorageControl.Proofs.Placement

namespace StorageControl

open Engine (Answer Call)

variable {registry : Attach.Registry} {fresh : String} {inv : Inventory} {k : Kind}
  {name parent id : String}

/-! ## Places of repeated creations -/

/-- The parent that a creation asks for: the one that the caller names, or else the one that the
record refers to. -/
def Family.parentFor {ρ : Type} (family : Family ρ) (parent : String) (record : ρ) : String :=
  if parent.isEmpty then family.reference record else parent

/-- A creation asks for the parent and the id of one that has returned a record. If that one had no
id, the id is the one that the record was given. -/
structure Repeats (registry : Attach.Registry) (k : Kind) (parent : String) (draft : k.Record)
    (id : String) (returned : k.Record) (parent' : String) (draft' : k.Record) (id' : String) :
    Prop where
  parent : k.parent?.isSome →
    (k.family registry).parentFor parent' draft' = (k.family registry).parentFor parent draft
  id : id' = if id.isEmpty then Name.ownId (Resource.name returned) else id

/-- Where a record belongs depends on the parent that is asked for. -/
theorem Place.parentOf_congr {e r e' r' : String}
    (h : k.parent?.isSome → (if e'.isEmpty then r' else e') = if e.isEmpty then r else e) :
    parentOf k e' r' = parentOf k e r := by
  unfold parentOf
  cases hk : k.parent? with
  | none => rfl
  | some owner =>
    simp only
    rw [h (by simp [hk])]

/-- A repeated creation has the name of the record that was returned, if it has a place at all. -/
theorem Repeats.name_eq {draft returned draft' : k.Record} {bits : Nat} {parent' id' : String}
    {place place' : Place} (h : Repeats registry k parent draft id returned parent' draft' id')
    (hplace : (k.family registry).place (Uuid.text bits) parent draft id = .ok place)
    (hreturned : Resource.name returned = place.name)
    (hplace' : (k.family registry).place fresh parent' draft' id' = .ok place') :
    place'.name = Resource.name returned := by
  obtain ⟨owner, own, howner, -, hown, rfl⟩ := Family.eq_under_of_place hplace
  obtain ⟨owner', own', howner', -, hown', rfl⟩ := Family.eq_under_of_place hplace'
  have hid : Check.isId own = true := Place.isId_of_idOf (fun _ => Uuid.isId_text bits) hown
  have hsameOwner : owner' = owner := by
    rw [Place.parentOf_congr h.parent, howner] at howner'
    exact (Except.ok.inj howner').symm
  have hsameOwn : id' = own := by
    rw [h.id]
    rcases Place.eq_of_idOf hown with ⟨rfl, rfl⟩ | ⟨rfl, -⟩
    · show Name.ownId (Resource.name returned) = Uuid.text bits
      rw [hreturned]
      exact Place.ownId_name_under k owner hid
    · have hne : own.isEmpty = false := by
        rw [Bool.eq_false_iff, Ne, String.isEmpty_iff]
        exact Check.ne_empty_of_isId hid
      rw [hne]
      rfl
  have hown'' : own' = own := by
    rcases Place.eq_of_idOf hown' with ⟨hempty, -⟩ | ⟨hown', -⟩
    · exact absurd (hsameOwn.symm.trans hempty) (Check.ne_empty_of_isId hid)
    · exact hown'.trans hsameOwn
  rw [hreturned, hsameOwner, hown'']

/-! ## Creations of kept records -/

/-- What comes of a creation whose record is kept: it fails if there is no place for it, and returns
the kept record otherwise. It asks nothing and changes nothing. -/
def ReturnsKept {σ : Type} (kept : k.Record) (place : Except Rejection Place) (s : σ)
    (course : Procedure.Course (Reply k) σ) : Prop :=
  (∃ why, place = .error why ∧ course = ⟨[], .error (.rejected why), s⟩) ∨
    (∃ there, place = .ok there ∧ course = ⟨[], .ok (.record kept), s⟩)

/-- If a record is kept wherever a creation may put one, it is returned. -/
theorem Inventory.returnsKept {σ : Type} (engine : σ → Call → Answer × σ) (s : σ)
    {record kept : k.Record} (hkept : inv.find? k name = some kept)
    (hname : ∀ place, (k.family registry).place fresh parent record id = .ok place →
      place.name = name) :
    ReturnsKept kept ((k.family registry).place fresh parent record id) s
      ((inv.perform registry fresh (.create parent record id)).run engine s) := by
  cases hplace : (k.family registry).place fresh parent record id with
  | error why =>
    refine .inl ⟨why, rfl, ?_⟩
    simp [perform, create, hplace, Engine.Script.check, Procedure.ofScript, Procedure.run]
  | ok place =>
    have hfind : inv.find? k place.name = some kept := by
      rw [hname place hplace]
      exact hkept
    refine .inr ⟨place, rfl, ?_⟩
    simp [perform, create, hplace, Engine.Script.check, Procedure.ofScript, hfind, Procedure.run]

/-- A record that a creation returns is kept then, in its place. -/
theorem kept_of_create {record returned : k.Record} {events : List Event} (hinv : inv.All Placed)
    (h : (inv.perform registry fresh (.create parent record id)).Goes events
      (.ok (.record returned))) :
    ∃ place, (k.family registry).place fresh parent record id = .ok place ∧
      Resource.name returned = place.name ∧
      (inv.after events).find? k (Resource.name returned) = some returned := by
  obtain ⟨result, hcreate, hresult⟩ := Procedure.goes_map_iff.1 h
  obtain rfl : result = .ok returned := by
    cases result with
    | error e => cases hresult
    | ok made =>
      cases hresult
      rfl
  rcases goes_create hcreate with ⟨rfl, ⟨_, -, hr⟩ | ⟨place, kept, hplace, hkept, hr⟩⟩ |
    ⟨place, t, hplace, hnew, hgo, rfl⟩
  · cases hr
  · obtain rfl := Except.ok.inj hr
    have hname : Resource.name returned = place.name := (hinv k place.name returned hkept).key
    refine ⟨place, hplace, hname, ?_⟩
    rw [hname]
    exact hkept
  · rcases goes_make hgo with ⟨made, hr, hmade⟩ | ⟨e, hr, -⟩
    · obtain rfl := Except.ok.inj hr
      refine ⟨place, hplace, hmade.name_eq, ?_⟩
      rw [Inventory.after_append, Inventory.after_map_asked, hmade.name_eq]
      exact inv.find?_keep_self k place.name returned
    · cases hr

/-! ## Names that stay -/

/-- In an entry the deletion of a name has succeeded. -/
inductive Entry.Deletes (k : Kind) (name : String) : Entry → Prop
  | intro {request : DeleteRequest} {bits : Nat} {before : Inventory} {events : List Event}
      {reply : Reply k} (hname : request.name = name) :
      Deletes k name ⟨⟨k, .delete request, bits⟩, before, events, .ok reply⟩

/-- A name that is kept before a step is kept after it, unless its deletion has succeeded. -/
theorem Entry.keeps {e : Entry}
    (h : Turn registry e.step.fresh e.before e.step.operation e.events e.result)
    (hdeletes : ¬ e.Deletes k name) (hbefore : (e.before.find? k name).isSome) :
    (e.after.find? k name).isSome := by
  obtain ⟨⟨kind, op, bits⟩, before, events, result⟩ := e
  obtain ⟨record, hrecord⟩ := Option.isSome_iff_exists.1 hbefore
  by_cases hkind : k = kind
  · subst hkind
    by_contra hgone
    rw [Option.isSome_iff_ne_none, not_not] at hgone
    obtain ⟨request, call, hop, hname, -⟩ := h.removed_of_goes hrecord hgone
    change op = .delete request at hop
    subst hop
    cases result with
    | ok reply => exact hdeletes (.intro hname)
    | error e =>
      -- Nothing goes in an operation that fails.
      have hsame : before.after events = before := h.after_of_error
      rw [Entry.after, hsame] at hgone
      rw [hgone] at hrecord
      cases hrecord
  · rw [after, Inventory.find?, h.table_of_ne hkind]
    exact hbefore

/-- A name that is kept before a run is kept after it, unless its deletion has succeeded. -/
theorem Run.keeps {σ : Type} {engine : σ → Call → Answer × σ} (steps : List Step) (s : σ)
    (hbefore : (inv.find? k name).isSome)
    (hdeletes : ∀ f ∈ (Run.of registry engine steps inv s).entries, ¬ f.Deletes k name) :
    ((Run.of registry engine steps inv s).inventory.find? k name).isSome := by
  induction steps generalizing inv s with
  | nil => exact hbefore
  | cons step steps ih =>
    let course := step.take registry engine inv s
    let first : Entry := ⟨step, inv, course.events, course.result⟩
    have hfirst : Turn registry step.fresh inv step.operation course.events course.result :=
      turn_of_goes (Procedure.goes_run engine _ s)
    have hafter : (first.after.find? k name).isSome :=
      Entry.keeps (e := first) hfirst (hdeletes first List.mem_cons_self) hbefore
    exact ih _ hafter fun f hf => hdeletes f (List.mem_cons_of_mem first hf)

/-! ## Runs -/

/-- Every creation of a run can be repeated after it. -/
def Run.Replays (registry : Attach.Registry) (run : Run) : Prop :=
  ∀ {k : Kind} {parent id : String} {draft returned : k.Record} {bits : Nat} {before : Inventory}
    {events : List Event} {earlier later : List Entry},
    run.entries = earlier ++
        ⟨⟨k, .create parent draft id, bits⟩, before, events, .ok (.record returned)⟩ :: later →
      (∀ f ∈ later, ¬ f.Deletes k (Resource.name returned)) →
        ∃ kept, run.inventory.find? k (Resource.name returned) = some kept ∧
          ∀ {σ : Type} (engine : σ → Call → Answer × σ) (s : σ) (fresh parent' : String)
            (draft' : k.Record) (id' : String),
            Repeats registry k parent draft id returned parent' draft' id' →
              ReturnsKept kept ((k.family registry).place fresh parent' draft' id') s
                ((run.inventory.perform registry fresh (.create parent' draft' id')).run engine s)

/-- Along every run that begins with nothing kept, whatever engine it is against, a creation that
has returned a record can be repeated as long as no deletion of the name has succeeded. Against any
engine it fails in the checks of the request, or it returns the record that is kept now, and in both
cases it asks nothing and changes nothing. -/
theorem run_replays {σ : Type} (registry : Attach.Registry) (engine : σ → Call → Answer × σ)
    (steps : List Step) (s : σ) : (Run.of registry engine steps .empty s).Replays registry := by
  intro k parent id draft returned bits before events earlier later hentries hdeletes
  obtain ⟨first, rest, s', hbefore, hgo, rfl, hinventory⟩ := Run.split hentries
  have hplaced : before.All Placed := by
    have hfirst : (Run.of registry engine first .empty s).inventory.All Placed :=
      Run.placed first s (Inventory.all_empty Placed)
    rwa [← hbefore] at hfirst
  obtain ⟨place, hplace, hname, hkept⟩ := kept_of_create hplaced hgo
  -- What was returned is kept after the entry, so its name is kept at the end.
  have hstays := Run.keeps rest s' (Option.isSome_iff_exists.2 ⟨returned, hkept⟩) hdeletes
  obtain ⟨kept, hfind⟩ := Option.isSome_iff_exists.1 hstays
  rw [hinventory]
  refine ⟨kept, hfind, ?_⟩
  intro σ' engine' s'' fresh parent' draft' id' hrepeats
  exact Inventory.returnsKept engine' s'' hfind fun place' hplace' =>
    hrepeats.name_eq hplace hname hplace'

end StorageControl
