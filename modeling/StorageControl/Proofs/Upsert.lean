/-
# Updates that create

An update of a record that is missing creates it, if that is allowed. The parent and the id are read
off the name in the request, and they make up that name again. So the update goes as the creation
under this parent and with this id, whatever parent the record refers to, and no id is generated.
-/
import StorageControl.Proofs.Frame
import StorageControl.Proofs.Placement

namespace StorageControl

open Engine (Answer Call Simulation)

variable {registry : Attach.Registry} {inv : Inventory} {k : Kind}

/-! ## Ids that are given -/

/-- When an id is given there is no need for a fresh one. -/
theorem Place.idOf_congr {requested : String} (h : requested ≠ "") (fresh fresh' : String) :
    idOf fresh requested = idOf fresh' requested := by
  have hgiven : requested.isEmpty = false := by
    rw [Bool.eq_false_iff, Ne, String.isEmpty_iff]
    exact h
  simp only [idOf, hgiven]
  rfl

/-- So a creation does not depend on the fresh one then. -/
theorem Inventory.create_congr {id : String} (h : id ≠ "") (fresh fresh' parent : String)
    (record : k.Record) :
    inv.create registry k fresh parent record id =
      inv.create registry k fresh' parent record id := by
  simp only [create, Family.place, Place.idOf_congr h fresh fresh']

/-- A name of a kind holds the name of a parent if the kind has one. -/
theorem Name.parent?_eq_map {name : String} (h : kind? name = some k) :
    parent? k name = k.parent?.map fun _ => (parent? k name).getD "" := by
  cases hk : k.parent? with
  | none => simp only [parent?, hk, Option.map_none]
  | some owner =>
    have hne := parent?_ne_empty h (by simp [hk])
    cases hparent : parent? k name with
    | none => exact absurd (by rw [hparent]; rfl) hne
    | some parent => rfl

/-! ## The creation that an update stands for -/

/-- Creates the record of an update under the parent and with the id that are read off its name. -/
def Operation.creationFor (request : UpdateRequest k.Record) : Operation k :=
  let name := Resource.name request.resource
  .create ((Name.parent? k name).getD "") request.resource (Name.ownId name)

namespace Inventory

variable {request : UpdateRequest k.Record}
  (hsupported : (k.family registry).updateUnsupported = none)

include hsupported

/-- An update under a name that is not one of the kind is over at once. -/
theorem update_of_rejected {why : Rejection}
    (hname : Check.nameOf k (Resource.name request.resource) = .error why) :
    inv.update registry k request = .failed (.rejected why) := by
  simp only [update, hsupported, hname]
  rfl

variable (hallowed : request.allowMissing = true)
  (hmissing : inv.find? k (Resource.name request.resource) = none)

include hallowed hmissing

/-- An update of a missing record is a creation, whatever text there is for a fresh id. -/
theorem update_of_missing (hname : Check.nameOf k (Resource.name request.resource) = .ok ())
    (fresh : String) :
    inv.update registry k request =
      inv.create registry k fresh ((Name.parent? k (Resource.name request.resource)).getD "")
        request.resource (Name.ownId (Resource.name request.resource)) := by
  have hid : Name.ownId (Resource.name request.resource) ≠ "" :=
    Name.ownId_ne_empty (Check.kind?_of_nameOf hname)
  rw [create_congr hid fresh ""]
  simp only [update, hsupported, hname, hmissing, hallowed, if_true]
  rfl

/-- The record that comes of it is kept under the name in the request, and refers to the parent in
that name. -/
theorem kept_of_update_of_missing {events : List Event} {record : k.Record}
    (h : (inv.update registry k request).Goes events (.ok record)) :
    Resource.name record = Resource.name request.resource ∧
      k.reference? record = Name.parent? k (Resource.name request.resource) ∧
      inv.after events = inv.keep k (Resource.name request.resource) record := by
  cases hname : Check.nameOf k (Resource.name request.resource) with
  | error why =>
    rw [update_of_rejected hsupported hname] at h
    cases h
  | ok =>
    rw [update_of_missing hsupported hallowed hmissing hname ""] at h
    rcases goes_create h with ⟨-, ⟨_, -, hr⟩ | ⟨place, kept, hplace, hkept, -⟩⟩ |
      ⟨place, t, hplace, -, hgo, rfl⟩
    · cases hr
    · -- The place bears the name in the request, under which nothing is kept.
      rw [Family.name_of_place_of_nameOf hname hplace, hmissing] at hkept
      cases hkept
    · have hplaceName := Family.name_of_place_of_nameOf hname hplace
      rcases goes_make hgo with ⟨_, hr, hmade⟩ | ⟨_, hr, -⟩
      · cases hr
        refine ⟨hmade.name_eq.trans hplaceName, ?_, ?_⟩
        · rw [hmade.reference?_eq, Family.eq_under_of_place_of_nameOf hname hplace]
          exact (Name.parent?_eq_map (Check.kind?_of_nameOf hname)).symm
        · rw [after_append, after_map_asked, hplaceName]
          rfl
      · cases hr

end Inventory

/-! ## Updates of missing records -/

/-- How an update goes that may create its record, when there is none under its name. -/
structure Upserts {σ : Type} (registry : Attach.Registry) (engine : σ → Call → Answer × σ) (s : σ)
    (inv : Inventory) (request : UpdateRequest k.Record)
    (course : Procedure.Course (Reply k) σ) : Prop where
  /-- Under a name of the kind it goes as the creation that it stands for, call by call and change
  by change, whether it succeeds or not. No text for a fresh id makes a difference. -/
  created : Check.nameOf k (Resource.name request.resource) = .ok () →
    ∀ fresh, course = (inv.perform registry fresh (.creationFor request)).run engine s
  /-- Under another name it fails without a call. -/
  rejected : ∀ why, Check.nameOf k (Resource.name request.resource) = .error why →
    course = ⟨[], .error (.rejected why), s⟩
  /-- What comes of it is a record that bears the name in the request and refers to the parent in
  that name. It is kept under the name, and nothing else changes. -/
  kept : ∀ reply, course.result = .ok reply → ∃ record, reply = .record record ∧
    Resource.name record = Resource.name request.resource ∧
    k.reference? record = Name.parent? k (Resource.name request.resource) ∧
    inv.after course.events = inv.keep k (Resource.name request.resource) record
  /-- If it fails, nothing is kept. -/
  failed : ∀ fault, course.result = .error fault → inv.after course.events = inv

/-- An update of a missing record, where that is allowed, creates the record under its name, or
fails and leaves everything as it was. This holds for all kinds that have updates, whatever is kept,
whatever engine is behind it, and whatever text there is for a fresh id. -/
theorem perform_update_of_missing {σ : Type} (registry : Attach.Registry)
    (engine : σ → Call → Answer × σ) (s : σ) (fresh : String) (inv : Inventory)
    (request : UpdateRequest k.Record)
    (hsupported : (k.family registry).updateUnsupported = none)
    (hallowed : request.allowMissing = true)
    (hmissing : inv.find? k (Resource.name request.resource) = none) :
    Upserts registry engine s inv request
      ((inv.perform registry fresh (.update request)).run engine s) where
  created hname fresh' := by
    simp only [Inventory.perform, Operation.creationFor,
      Inventory.update_of_missing hsupported hallowed hmissing hname fresh']
  rejected why hname := by
    simp only [Inventory.perform, Inventory.update_of_rejected hsupported hname]
    rfl
  kept reply hreply := by
    have hgo := Procedure.goes_run engine (inv.perform registry fresh (.update request)) s
    rw [hreply] at hgo
    obtain ⟨r, hupdate, hr⟩ := Procedure.goes_map_iff.1 hgo
    cases r with
    | error e => cases hr
    | ok record =>
      cases hr
      exact ⟨record, rfl,
        Inventory.kept_of_update_of_missing hsupported hallowed hmissing hupdate⟩
  failed fault hfault := by
    have hgo := Procedure.goes_run engine (inv.perform registry fresh (.update request)) s
    rw [hfault] at hgo
    exact (turn_of_goes hgo).after_of_error

/-- A controller that is missing is created under the subsystem in its name, whose id looks like a
collection, although it refers to another one. -/
theorem perform_update_of_missing_controller :
    let w := World.after {} [.take ⟨.subsystem,
      .create "" { spec := { nqn := "nqn.2022-09.io.spdk:one" } } "subsystems", 0⟩]
    let name := "//storage.bridge.dev/subsystems/subsystems/controllers/a"
    let request : UpdateRequest Controller :=
      { resource :=
          { name
            spec := { subsystemNameRef := "//storage.bridge.dev/subsystems/s2", trtype := .pcie } }
        allowMissing := true }
    let course := (w.inventory.perform (k := .controller) {} "" (.update request)).run
      Simulation.answer w.engine
    request.allowMissing = true ∧ w.inventory.find? .controller name = none ∧
      ∃ c : Controller, course.result = .ok (.record c) ∧ c.name = name ∧
        c.spec.subsystemNameRef = "//storage.bridge.dev/subsystems/subsystems" ∧
        w.inventory.after course.events = w.inventory.keep .controller name c := by
  intro w name request course
  have hmissing : w.inventory.find? .controller name = none := by decide +kernel
  have hparent : Name.parent? .controller name =
      some "//storage.bridge.dev/subsystems/subsystems" := by
    decide +kernel
  have hsucceeds : course.result.isOk = true := by decide +kernel
  have hupserts := perform_update_of_missing (k := .controller) {} Simulation.answer w.engine ""
    w.inventory request rfl rfl hmissing
  cases hresult : course.result with
  | error e =>
    rw [hresult] at hsucceeds
    cases hsucceeds
  | ok reply =>
    obtain ⟨c, rfl, hname, hreference, hafter⟩ := hupserts.kept reply hresult
    have hreference : some c.spec.subsystemNameRef = _ := hreference.trans hparent
    exact ⟨rfl, hmissing, c, rfl, hname, Option.some.inj hreference, hafter⟩

end StorageControl
