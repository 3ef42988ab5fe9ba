/-
# Records of every kind

What the records of all kinds have in common: a name, a written form, and the fields that tie them
to what the engine holds. Those fields are pinned: an update may leave them unset, which keeps
them, but may not change them.
-/
import StorageControl.Name
import StorageControl.Record.Nvme
import StorageControl.Record.Virtio

namespace StorageControl

/-! ## Pinned fields -/

/-- A field that an update may not change. Holding it gives the updated record with the stored
value, or nothing if the update names another value. -/
structure Pin (ρ : Type) where
  path : String
  hold : (updated stored : ρ) → Option ρ

namespace Pin

variable {ρ γ : Type} [DecidableEq γ]

/-- A field that an update leaves alone by giving it the value `unset`. -/
def keeping (path : String) (unset : γ) (get : ρ → γ) (set : γ → ρ → ρ) : Pin ρ where
  path := path
  hold updated stored :=
    if get updated = unset then some (set (get stored) updated)
    else if get updated = get stored then some updated
    else none

/-- A field that every update must repeat. -/
def fixed (path : String) (get : ρ → γ) : Pin ρ where
  path := path
  hold updated stored := if get updated = get stored then some updated else none

/-- Holds fields in turn. Gives the record as far as it got, and the path of the first field that
the update would change. -/
def holdAll {ρ : Type} : List (Pin ρ) → (updated stored : ρ) → ρ × Option String
  | [], updated, _ => (updated, none)
  | p :: pins, updated, stored =>
    match p.hold updated stored with
    | none => (updated, some p.path)
    | some held => holdAll pins held stored

end Pin

/-! ## Resources -/

/-- A type of records of one kind. -/
class Resource (ρ : Type) where
  kind : Kind
  codec : Codec ρ
  name : ρ → String
  rename : String → ρ → ρ
  pins : List (Pin ρ)

instance : Resource Subsystem where
  kind := .subsystem
  codec := Subsystem.codec
  name := (·.name)
  rename name r := { r with name }
  pins :=
    [.keeping "spec.nqn" "" (·.spec.nqn) fun v r => { r with spec.nqn := v },
     .keeping "spec.hostnqn" none (·.spec.hostnqn) fun v r => { r with spec.hostnqn := v },
     .keeping "spec.psk" none (·.spec.psk) fun v r => { r with spec.psk := v }]

instance : Resource Controller where
  kind := .controller
  codec := Controller.codec
  name := (·.name)
  rename name r := { r with name }
  pins :=
    [.keeping "spec.subsystemNameRef" "" (·.spec.subsystemNameRef)
      fun v r => { r with spec.subsystemNameRef := v },
     .fixed "spec.trtype" (·.spec.trtype),
     .keeping "spec.endpoint" none (·.spec.endpoint) fun v r => { r with spec.endpoint := v }]

instance : Resource NvmeNamespace where
  kind := .nvmeNamespace
  codec := NvmeNamespace.codec
  name := (·.name)
  rename name r := { r with name }
  pins :=
    [.keeping "spec.subsystemNameRef" "" (·.spec.subsystemNameRef)
      fun v r => { r with spec.subsystemNameRef := v },
     .keeping "spec.hostNsid" 0 (·.spec.hostNsid) fun v r => { r with spec.hostNsid := v },
     .keeping "spec.volumeNameRef" "" (·.spec.volumeNameRef)
      fun v r => { r with spec.volumeNameRef := v },
     .keeping "spec.uuid" none (·.spec.uuid) fun v r => { r with spec.uuid := v },
     .keeping "spec.nguid" none (·.spec.nguid) fun v r => { r with spec.nguid := v },
     .keeping "spec.eui64" none (·.spec.eui64) fun v r => { r with spec.eui64 := v }]

instance : Resource VirtioBlk where
  kind := .virtioBlk
  codec := VirtioBlk.codec
  name := (·.name)
  rename name r := { r with name }
  pins :=
    [.keeping "volumeNameRef" "" (·.volumeNameRef) fun v r => { r with volumeNameRef := v },
     .keeping "maxLimit" none (·.maxLimit) fun v r => { r with maxLimit := v }]

instance : Resource ScsiController where
  kind := .scsiController
  codec := ScsiController.codec
  name := (·.name)
  rename name r := { r with name }
  pins := []

instance : Resource ScsiLun where
  kind := .scsiLun
  codec := ScsiLun.codec
  name := (·.name)
  rename name r := { r with name }
  pins :=
    [.keeping "controllerNameRef" "" (·.controllerNameRef)
      fun v r => { r with controllerNameRef := v },
     .keeping "volumeNameRef" "" (·.volumeNameRef) fun v r => { r with volumeNameRef := v },
     .fixed "targetNum" (·.targetNum)]

/-- Holds the pinned fields of an update at their stored values. -/
def Resource.pinIdentity {ρ : Type} [Resource ρ] (updated stored : ρ) : ρ × Option String :=
  Pin.holdAll (Resource.pins (ρ := ρ)) updated stored

/-! ## Records by kind -/

/-- The type of the records of a kind. -/
abbrev Kind.Record : Kind → Type
  | .subsystem => Subsystem
  | .controller => Controller
  | .nvmeNamespace => NvmeNamespace
  | .virtioBlk => VirtioBlk
  | .scsiController => ScsiController
  | .scsiLun => ScsiLun

/-- The records of every kind are resources. -/
@[reducible] def Kind.resource : (k : Kind) → Resource k.Record
  | .subsystem => inferInstanceAs (Resource Subsystem)
  | .controller => inferInstanceAs (Resource Controller)
  | .nvmeNamespace => inferInstanceAs (Resource NvmeNamespace)
  | .virtioBlk => inferInstanceAs (Resource VirtioBlk)
  | .scsiController => inferInstanceAs (Resource ScsiController)
  | .scsiLun => inferInstanceAs (Resource ScsiLun)

instance (k : Kind) : Resource k.Record := k.resource

instance (k : Kind) : DecidableEq k.Record :=
  match k with
  | .subsystem => inferInstanceAs (DecidableEq Subsystem)
  | .controller => inferInstanceAs (DecidableEq Controller)
  | .nvmeNamespace => inferInstanceAs (DecidableEq NvmeNamespace)
  | .virtioBlk => inferInstanceAs (DecidableEq VirtioBlk)
  | .scsiController => inferInstanceAs (DecidableEq ScsiController)
  | .scsiLun => inferInstanceAs (DecidableEq ScsiLun)

end StorageControl
