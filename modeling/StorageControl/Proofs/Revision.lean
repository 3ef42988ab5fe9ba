/-
# What an update leaves as it was

The fields that tie a record to the engine are pinned. An update succeeds exactly when the merged
record leaves each of them unset or repeats it, and what is kept then is the merged record with the
stored values of these fields. The name of a record is the same after every update.
-/
import StorageControl.Inventory.Operation
import StorageControl.Proofs.Name

namespace StorageControl

/-! ## Pins -/

namespace Pin

variable {ρ γ : Type} [DecidableEq γ] {path : String} {updated stored held : ρ}

/-- A field that may be left unset is held when it is unset or repeated, and then it has its stored
value for the pins that follow. -/
theorem holdAll_keeping_iff {unset : γ} {get : ρ → γ} {set : γ → ρ → ρ} {pins : List (Pin ρ)}
    (hset : ∀ r, set (get r) r = r) :
    holdAll (keeping path unset get set :: pins) updated stored = (held, none) ↔
      (get updated = unset ∨ get updated = get stored) ∧
        holdAll pins (set (get stored) updated) stored = (held, none) := by
  by_cases hunset : get updated = unset
  · simp [holdAll, keeping, hunset]
  · by_cases hsame : get updated = get stored
    · have hself : set (get stored) updated = updated := by
        rw [← hsame]
        exact hset updated
      have hne : get stored ≠ unset := by
        rw [← hsame]
        exact hunset
      simp [holdAll, keeping, hsame, hself, hne]
    · simp [holdAll, keeping, hunset, hsame]

/-- A field without an unset value is held when it is repeated. -/
theorem holdAll_fixed_iff {get : ρ → γ} {pins : List (Pin ρ)} :
    holdAll (fixed path get :: pins) updated stored = (held, none) ↔
      get updated = get stored ∧ holdAll pins updated stored = (held, none) := by
  by_cases hsame : get updated = get stored
  · simp [holdAll, fixed, hsame]
  · simp [holdAll, fixed, hsame]

theorem holdAll_nil_iff : holdAll [] updated stored = (held, none) ↔ held = updated := by
  simp [holdAll, eq_comm]

end Pin

/-! ## Identity -/

/-- The subsystems are the same for the engine. -/
structure Subsystem.SameIdentity (r stored : Subsystem) : Prop where
  nqn : r.spec.nqn = stored.spec.nqn
  hostnqn : r.spec.hostnqn = stored.spec.hostnqn
  psk : r.spec.psk = stored.spec.psk

/-- The controllers are the same for the engine. -/
structure Controller.SameIdentity (r stored : Controller) : Prop where
  subsystemNameRef : r.spec.subsystemNameRef = stored.spec.subsystemNameRef
  trtype : r.spec.trtype = stored.spec.trtype
  endpoint : r.spec.endpoint = stored.spec.endpoint

/-- The namespaces are the same for the engine. -/
structure NvmeNamespace.SameIdentity (r stored : NvmeNamespace) : Prop where
  subsystemNameRef : r.spec.subsystemNameRef = stored.spec.subsystemNameRef
  hostNsid : r.spec.hostNsid = stored.spec.hostNsid
  volumeNameRef : r.spec.volumeNameRef = stored.spec.volumeNameRef
  uuid : r.spec.uuid = stored.spec.uuid
  nguid : r.spec.nguid = stored.spec.nguid
  eui64 : r.spec.eui64 = stored.spec.eui64

/-- The virtio-blk devices are the same for the engine. -/
structure VirtioBlk.SameIdentity (r stored : VirtioBlk) : Prop where
  volumeNameRef : r.volumeNameRef = stored.volumeNameRef
  maxLimit : r.maxLimit = stored.maxLimit

/-- The LUNs are the same for the engine. -/
structure ScsiLun.SameIdentity (r stored : ScsiLun) : Prop where
  controllerNameRef : r.controllerNameRef = stored.controllerNameRef
  volumeNameRef : r.volumeNameRef = stored.volumeNameRef
  targetNum : r.targetNum = stored.targetNum

/-- Two records agree in the fields that tie them to the engine. A SCSI controller is tied to it by
its name alone. -/
def SameIdentity : (k : Kind) → (r stored : k.Record) → Prop
  | .subsystem => Subsystem.SameIdentity
  | .controller => Controller.SameIdentity
  | .nvmeNamespace => NvmeNamespace.SameIdentity
  | .virtioBlk => VirtioBlk.SameIdentity
  | .scsiController => fun _ _ => True
  | .scsiLun => ScsiLun.SameIdentity

theorem SameIdentity.refl (k : Kind) (r : k.Record) : SameIdentity k r r := by
  cases k with
  | scsiController => trivial
  | _ => constructor <;> rfl

theorem SameIdentity.trans {k : Kind} {r q stored : k.Record} (h : SameIdentity k r q)
    (h' : SameIdentity k q stored) : SameIdentity k r stored := by
  cases k with
  | subsystem =>
    exact ⟨h.nqn.trans h'.nqn, h.hostnqn.trans h'.hostnqn, h.psk.trans h'.psk⟩
  | controller =>
    exact ⟨h.subsystemNameRef.trans h'.subsystemNameRef, h.trtype.trans h'.trtype,
      h.endpoint.trans h'.endpoint⟩
  | nvmeNamespace =>
    exact ⟨h.subsystemNameRef.trans h'.subsystemNameRef, h.hostNsid.trans h'.hostNsid,
      h.volumeNameRef.trans h'.volumeNameRef, h.uuid.trans h'.uuid, h.nguid.trans h'.nguid,
      h.eui64.trans h'.eui64⟩
  | virtioBlk => exact ⟨h.volumeNameRef.trans h'.volumeNameRef, h.maxLimit.trans h'.maxLimit⟩
  | scsiController => trivial
  | scsiLun =>
    exact ⟨h.controllerNameRef.trans h'.controllerNameRef, h.volumeNameRef.trans h'.volumeNameRef,
      h.targetNum.trans h'.targetNum⟩

/-- A merged record leaves a field unset, or has the stored value in it. -/
def Leaves {γ : Type} (unset value stored : γ) : Prop :=
  value = unset ∨ value = stored

/-- A merged record may replace the stored one: it changes none of the fields that tie that one to
the engine. A transport and a target number cannot be left unset. -/
def LeavesIdentity : (k : Kind) → (merged stored : k.Record) → Prop
  | .subsystem, m, s =>
    Leaves "" m.spec.nqn s.spec.nqn ∧ Leaves none m.spec.hostnqn s.spec.hostnqn ∧
      Leaves none m.spec.psk s.spec.psk
  | .controller, m, s =>
    Leaves "" m.spec.subsystemNameRef s.spec.subsystemNameRef ∧ m.spec.trtype = s.spec.trtype ∧
      Leaves none m.spec.endpoint s.spec.endpoint
  | .nvmeNamespace, m, s =>
    Leaves "" m.spec.subsystemNameRef s.spec.subsystemNameRef ∧
      Leaves 0 m.spec.hostNsid s.spec.hostNsid ∧
      Leaves "" m.spec.volumeNameRef s.spec.volumeNameRef ∧ Leaves none m.spec.uuid s.spec.uuid ∧
      Leaves none m.spec.nguid s.spec.nguid ∧ Leaves none m.spec.eui64 s.spec.eui64
  | .virtioBlk, m, s =>
    Leaves "" m.volumeNameRef s.volumeNameRef ∧ Leaves none m.maxLimit s.maxLimit
  | .scsiController, _, _ => True
  | .scsiLun, m, s =>
    Leaves "" m.controllerNameRef s.controllerNameRef ∧
      Leaves "" m.volumeNameRef s.volumeNameRef ∧ m.targetNum = s.targetNum

/-- A merged record in which the fields that it may leave unset have their stored values. -/
def withIdentity : (k : Kind) → (merged stored : k.Record) → k.Record
  | .subsystem, m, s =>
    { m with
      spec.nqn := s.spec.nqn
      spec.hostnqn := s.spec.hostnqn
      spec.psk := s.spec.psk }
  | .controller, m, s =>
    { m with
      spec.subsystemNameRef := s.spec.subsystemNameRef
      spec.endpoint := s.spec.endpoint }
  | .nvmeNamespace, m, s =>
    { m with
      spec.subsystemNameRef := s.spec.subsystemNameRef
      spec.hostNsid := s.spec.hostNsid
      spec.volumeNameRef := s.spec.volumeNameRef
      spec.uuid := s.spec.uuid
      spec.nguid := s.spec.nguid
      spec.eui64 := s.spec.eui64 }
  | .virtioBlk, m, s => { m with volumeNameRef := s.volumeNameRef, maxLimit := s.maxLimit }
  | .scsiController, m, _ => m
  | .scsiLun, m, s =>
    { m with controllerNameRef := s.controllerNameRef, volumeNameRef := s.volumeNameRef }

theorem name_withIdentity (k : Kind) (merged stored : k.Record) :
    Resource.name (withIdentity k merged stored) = Resource.name merged := by
  cases k <;> rfl

/-- With the stored values a record that leaves the identity has the identity. -/
theorem LeavesIdentity.sameIdentity {k : Kind} {merged stored : k.Record}
    (h : LeavesIdentity k merged stored) :
    SameIdentity k (withIdentity k merged stored) stored := by
  cases k with
  | subsystem | nvmeNamespace | virtioBlk => constructor <;> rfl
  | controller => exact ⟨rfl, h.2.1, rfl⟩
  | scsiController => trivial
  | scsiLun => exact ⟨rfl, rfl, h.2.2⟩

/-- The pins of a kind hold exactly for the records that leave the identity, and they put the stored
one in. -/
theorem holdAll_pins_iff {k : Kind} {merged stored held : k.Record} :
    Pin.holdAll Resource.pins merged stored = (held, none) ↔
      LeavesIdentity k merged stored ∧ held = withIdentity k merged stored := by
  cases k with
  | scsiController => exact Pin.holdAll_nil_iff.trans (by simp [LeavesIdentity, withIdentity])
  | _ =>
    simp only [Resource.pins, Pin.holdAll_keeping_iff, Pin.holdAll_fixed_iff, Pin.holdAll_nil_iff,
      implies_true, LeavesIdentity, Leaves, withIdentity, and_assoc]

/-! ## Updates -/

/-- A merged record has the name of the existing one. -/
theorem FieldMask.name_of_merge {k : Kind} {existing update merged : k.Record}
    {mask : Option FieldMask} (h : merge existing update mask = .ok merged) :
    Resource.name merged = Resource.name existing := by
  have hrename (r : k.Record) : Resource.name (Resource.rename (Resource.name existing) r) =
      Resource.name existing := by
    cases k <;> rfl
  unfold merge at h
  split at h
  · cases h
    exact hrename _
  · obtain ⟨_, -, h⟩ := Check.bind_eq_ok_iff.1 h
    split at h
    · cases h
      exact hrename _
    · cases h

namespace Inventory

variable {k : Kind} {kept revised : k.Record} {request : UpdateRequest k.Record}

/-- An update succeeds exactly when the records can be merged and the merged one leaves the identity
of the stored one, which stays. -/
theorem revise_eq_ok_iff :
    revise kept request = .ok revised ↔
      ∃ merged, FieldMask.merge kept request.resource request.updateMask = .ok merged ∧
        LeavesIdentity k merged kept ∧ revised = withIdentity k merged kept := by
  simp only [revise, Check.bind_eq_ok_iff, ← holdAll_pins_iff]
  refine exists_congr fun merged => and_congr_right fun _ => ?_
  rw [Resource.pinIdentity]
  split
  · rename_i held hpin
    simp [hpin]
  · rename_i path hpin
    simp [hpin]

/-- An update leaves the name. -/
theorem name_of_revise (h : revise kept request = .ok revised) :
    Resource.name revised = Resource.name kept := by
  obtain ⟨merged, hmerge, -, rfl⟩ := revise_eq_ok_iff.1 h
  rw [name_withIdentity, FieldMask.name_of_merge hmerge]

/-- An update leaves the identity. -/
theorem sameIdentity_of_revise (h : revise kept request = .ok revised) :
    SameIdentity k revised kept := by
  obtain ⟨merged, -, hleaves, rfl⟩ := revise_eq_ok_iff.1 h
  exact hleaves.sameIdentity

/-- An update leaves the parent. -/
theorem reference_of_revise (registry : Attach.Registry) (h : revise kept request = .ok revised) :
    (k.family registry).reference revised = (k.family registry).reference kept := by
  have hsame := sameIdentity_of_revise h
  cases k with
  | controller | nvmeNamespace => exact hsame.subsystemNameRef
  | scsiLun => exact hsame.controllerNameRef
  | subsystem | virtioBlk | scsiController => rfl

end Inventory

end StorageControl
