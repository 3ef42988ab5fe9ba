/-
# What creations check and updates do not

A device is made only on a physical function of port zero, with a volume and without negative
limits, and a SCSI controller only on such a function and without a negative number of LUNs. No
update checks any of this again. The volume and the limits are pinned, so that they stay. But the
port, the virtual function and the number of LUNs are what was said of them last. So a record that
is kept would pass the checks again exactly if nothing that was said last of these fails them.
-/
import StorageControl.Proofs.Limits
import StorageControl.Proofs.Part

namespace StorageControl

open Engine (Answer Call Simulation)

variable {registry : Attach.Registry} {run : Run} {name : String} {e : Entry} {later : List Entry}

/-! ## Records that creations accept -/

/-- Limits that are not negative. -/
structure Limits.Nonnegative (l : Limits) : Prop where
  operations : 0 ≤ l.rwIopsKiops
  bandwidth : 0 ≤ l.rwBandwidthMbs
  reading : 0 ≤ l.rdBandwidthMbs
  writing : 0 ≤ l.wrBandwidthMbs

/-- A physical function on port zero. -/
structure PciFunction.Emulated (f : PciFunction) : Prop where
  port : f.portId = 0
  function : f.virtualFunction = 0

/-- A device with a volume and without negative limits. -/
structure VirtioBlk.Furnished (d : VirtioBlk) : Prop where
  volume : Text.isBlankText d.volumeNameRef = false
  limits : ∀ l, d.maxLimit = some l → l.Nonnegative

/-- A device that passes the checks of a creation. -/
structure VirtioBlk.Acceptable (d : VirtioBlk) : Prop where
  furnished : d.Furnished
  emulated : d.pcieId.Emulated

/-- A SCSI controller that passes the checks of a creation. -/
structure ScsiController.Acceptable (c : ScsiController) : Prop where
  capacity : 0 ≤ c.maxLuns
  emulated : c.pcieId.Emulated

theorem Attach.emulated_of_checkLocalFunction {f : PciFunction}
    (h : checkLocalFunction f = .ok ()) : f.Emulated := by
  unfold checkLocalFunction at h
  split at h
  · cases h
  · rename_i hport
    split at h
    · cases h
    · rename_i hfunction
      exact ⟨Decidable.not_not.1 hport, Decidable.not_not.1 hfunction⟩

theorem Engine.nonnegative_of_checkLimits {volume : String} {l : Limits}
    (h : checkLimits volume l = .ok ()) : l.Nonnegative := by
  unfold checkLimits at h
  split at h
  · cases h
  · rename_i hnone
    have hfield : ∀ f ∈ limitFields l, 0 ≤ f.2 := by
      intro f hmem
      have hf := List.find?_eq_none.1 hnone f hmem
      rw [decide_eq_true_eq, Int64.not_lt] at hf
      exact hf
    exact ⟨hfield ("rwIopsKiops", _) (by simp [limitFields]),
      hfield ("rwBandwidthMbs", _) (by simp [limitFields]),
      hfield ("rdBandwidthMbs", _) (by simp [limitFields]),
      hfield ("wrBandwidthMbs", _) (by simp [limitFields])⟩

/-- Limits of which none is set are not negative. -/
theorem Limits.nonnegative_of_isUnlimited {l : Limits} (h : l.isUnlimited = true) :
    l.Nonnegative := by
  simp only [isUnlimited, Bool.and_eq_true, beq_iff_eq] at h
  obtain ⟨⟨⟨hoperations, hbandwidth⟩, hreading⟩, hwriting⟩ := h
  constructor <;> simp only [hoperations, hbandwidth, hreading, hwriting] <;> decide

/-- A device is furnished if it has a volume and its limits pass the check when any is set. -/
theorem VirtioBlk.furnished_of_limits? {d : VirtioBlk}
    (hvolume : Text.isBlankText d.volumeNameRef = false)
    (hlimits : ∀ l, d.limits? = some l → Engine.checkLimits d.volumeNameRef l = .ok ()) :
    d.Furnished := by
  refine ⟨hvolume, fun l hl => ?_⟩
  cases hset : l.isUnlimited with
  | true => exact Limits.nonnegative_of_isUnlimited hset
  | false =>
    have hlimit : d.limits? = some l := by
      rw [limits?, hl]
      simp [hset]
    exact Engine.nonnegative_of_checkLimits (hlimits l hlimit)

/-- A device with the volume and the limits of a furnished one is furnished. -/
theorem VirtioBlk.Furnished.of_sameIdentity {d made : VirtioBlk} (h : made.Furnished)
    (hsame : d.SameIdentity made) : d.Furnished := by
  constructor
  · rw [hsame.volumeNameRef]
    exact h.volume
  · rw [hsame.maxLimit]
    exact h.limits

/-! ## Creations -/

theorem Check.not_blank_of_required {field value : String} (h : required field value = .ok ()) :
    Text.isBlankText value = false := by
  unfold required at h
  split at h
  · cases h
  · rename_i hblank
    simpa using hblank

/-- A device that has been made passes the checks of a creation. -/
theorem Entry.Makes.acceptable_device {made : VirtioBlk}
    (h : e.Makes registry .virtioBlk name made)
    (hgoes : (e.before.perform registry e.step.fresh e.step.operation).Goes e.events e.result) :
    made.Acceptable := by
  cases h with
  | @intro op bits before events place draft hop hname hmade hnew hkept =>
    rw [← hname] at hnew
    obtain ⟨t, result, hmake, -, hresult⟩ := goes_of_draft? hop hnew rfl hgoes
    have hpasses : VirtioBlks.passes place draft = true := by
      refine (VirtioBlks.asked_iff_passes hmake).1 ?_
      cases VirtioBlks.attempt_of_goes hmake with
      | attached => simp
      | rejected | unlimited | detached => cases hresult
    obtain ⟨⟨params, hparams⟩, hlimits⟩ := VirtioBlks.passes_iff.1 hpasses
    obtain ⟨_, hemulated, -⟩ := Check.bind_eq_ok_iff.1 hparams
    have hvolume : Text.isBlankText draft.volumeNameRef = false :=
      Check.not_blank_of_required (Operation.placed_of_draft? hop).2.2
    rw [VirtioBlks.eq_of_made hmade]
    exact ⟨VirtioBlk.furnished_of_limits? hvolume hlimits,
      Attach.emulated_of_checkLocalFunction hemulated⟩

/-- A SCSI controller that has been made passes the checks of a creation. -/
theorem Entry.Makes.acceptable_controller {made : ScsiController}
    (h : e.Makes registry .scsiController name made) : made.Acceptable := by
  cases h with
  | @intro op bits before events place draft hop hname hmade hnew hkept =>
    have haccept : ScsiControllers.accept draft = .ok () := (Operation.placed_of_draft? hop).2.2
    generalize exchanges events = t at hmade
    cases hmade with
    | scsiController hparams =>
      obtain ⟨_, hemulated, -⟩ := Check.bind_eq_ok_iff.1 hparams
      refine ⟨?_, Attach.emulated_of_checkLocalFunction hemulated⟩
      unfold ScsiControllers.accept at haccept
      split at haccept
      · cases haccept
      · rename_i hcapacity
        exact Int32.not_lt.1 hcapacity

/-! ## Parts that updates may write

The port, the virtual function and the number of LUNs are parts of the records. What follows is that
they stand under their paths in what is written for a record. -/

/-! ### PCI functions -/

theorem PciFunction.decode_obj_iff (members : List (String × Json)) (f : PciFunction) :
    PciFunction.codec.decode (.obj members) = some f ↔
      (Assoc.find? "physicalFunction" members).elim none Codec.int32.decode =
          some f.physicalFunction ∧
        (Assoc.find? "virtualFunction" members).elim (some 0) Codec.int32.decode =
          some f.virtualFunction ∧
        (Assoc.find? "portId" members).elim (some 0) Codec.int32.decode = some f.portId := by
  cases f
  simp only [codec, Codec.record, Codec.Fields.defaulted, Codec.Fields.required,
    Codec.Fields.decode_add_eq_some_iff, Codec.Fields.decode_of_eq_some_iff]
  simp [and_assoc]

theorem PciFunction.hasField_portId : codec.HasField ["portId"] .int32 (·.portId) := by
  refine .of_record (fun f => ?_) (fun f => ?_) fun members f w hread hw => ?_
  · simp
  · simp [Assoc.find?_cons]
  · rw [← ((decode_obj_iff members f).1 hread).2.2, hw]
    rfl

theorem PciFunction.hasField_virtualFunction :
    codec.HasField ["virtualFunction"] .int32 (·.virtualFunction) := by
  refine .of_record (fun f => ?_) (fun f => ?_) fun members f w hread hw => ?_
  · simp
  · simp [Assoc.find?_cons]
  · rw [← ((decode_obj_iff members f).1 hread).2.1, hw]
    rfl

/-! ### virtio devices -/

theorem VirtioBlk.decode_obj_iff (members : List (String × Json)) (d : VirtioBlk) :
    VirtioBlk.codec.decode (.obj members) = some d ↔
      (Assoc.find? "name" members).elim (some "") Codec.text.decode = some d.name ∧
        (Assoc.find? "pcieId" members).elim (some {}) PciFunction.codec.decode = some d.pcieId ∧
        (Assoc.find? "volumeNameRef" members).elim none Codec.text.decode =
          some d.volumeNameRef ∧
        (Assoc.find? "maxIoQps" members).elim (some 0) Codec.int64.decode = some d.maxIoQps ∧
        (Assoc.find? "maxLimit" members).elim (some none) Limits.codec.nullable.decode =
          some d.maxLimit := by
  cases d
  simp only [codec, Codec.record, Codec.Fields.defaulted, Codec.Fields.required,
    Codec.Fields.nullable, Codec.Fields.decode_add_eq_some_iff, Codec.Fields.decode_of_eq_some_iff]
  simp [and_assoc]

theorem VirtioBlk.hasField_pcieId : codec.HasField ["pcieId"] PciFunction.codec (·.pcieId) := by
  refine .of_record (fun d => ?_) (fun d => ?_) fun members d w hread hw => ?_
  · simp
  · simp [Assoc.find?_cons]
  · rw [← ((decode_obj_iff members d).1 hread).2.1, hw]
    rfl

theorem ScsiController.decode_obj_iff (members : List (String × Json)) (c : ScsiController) :
    ScsiController.codec.decode (.obj members) = some c ↔
      (Assoc.find? "name" members).elim (some "") Codec.text.decode = some c.name ∧
        (Assoc.find? "pcieId" members).elim (some {}) PciFunction.codec.decode = some c.pcieId ∧
        (Assoc.find? "maxLuns" members).elim (some 0) Codec.int32.decode = some c.maxLuns := by
  cases c
  simp only [codec, Codec.record, Codec.Fields.defaulted, Codec.Fields.decode_add_eq_some_iff,
    Codec.Fields.decode_of_eq_some_iff]
  simp [and_assoc]

theorem ScsiController.hasField_pcieId :
    codec.HasField ["pcieId"] PciFunction.codec (·.pcieId) := by
  refine .of_record (fun c => ?_) (fun c => ?_) fun members c w hread hw => ?_
  · simp
  · simp [Assoc.find?_cons]
  · rw [← ((decode_obj_iff members c).1 hread).2.1, hw]
    rfl

theorem ScsiController.hasField_maxLuns : codec.HasField ["maxLuns"] .int32 (·.maxLuns) := by
  refine .of_record (fun c => ?_) (fun c => ?_) fun members c w hread hw => ?_
  · simp
  · simp [Assoc.find?_cons]
  · rw [← ((decode_obj_iff members c).1 hread).2.2, hw]
    rfl

/-- The port of a virtio-blk device. -/
def VirtioBlk.port : Part .virtioBlk Int32 :=
  .number ["pcieId", "portId"] (·.pcieId.portId)
    (hasField_pcieId.trans PciFunction.hasField_portId) (fun _ _ => rfl) fun _ _ => rfl

/-- The virtual function of a virtio-blk device. -/
def VirtioBlk.function : Part .virtioBlk Int32 :=
  .number ["pcieId", "virtualFunction"] (·.pcieId.virtualFunction)
    (hasField_pcieId.trans PciFunction.hasField_virtualFunction) (fun _ _ => rfl) fun _ _ => rfl

/-- The port of a SCSI controller. -/
def ScsiController.port : Part .scsiController Int32 :=
  .number ["pcieId", "portId"] (·.pcieId.portId)
    (hasField_pcieId.trans PciFunction.hasField_portId) (fun _ _ => rfl) fun _ _ => rfl

/-- The virtual function of a SCSI controller. -/
def ScsiController.function : Part .scsiController Int32 :=
  .number ["pcieId", "virtualFunction"] (·.pcieId.virtualFunction)
    (hasField_pcieId.trans PciFunction.hasField_virtualFunction) (fun _ _ => rfl) fun _ _ => rfl

/-- How many LUNs a SCSI controller may have. -/
def ScsiController.capacity : Part .scsiController Int32 :=
  .number ["maxLuns"] (·.maxLuns) hasField_maxLuns (fun _ _ => rfl) fun _ _ => rfl

/-! ## Runs -/

/-- How the records that are kept at the end of a run stand to the checks of a creation. -/
structure Run.Screens (registry : Attach.Registry) (run : Run) : Prop where
  /-- A device was acceptable when it was made. It keeps its volume and its limits, and it is still
  acceptable exactly if the last port and the last virtual function that were said are zero. -/
  devices : ∀ name d, run.inventory.find? .virtioBlk name = some d →
    ∃ e made later, run.History registry .virtioBlk name d e made later ∧ made.Acceptable ∧
      d.Furnished ∧
      (d.Acceptable ↔ VirtioBlk.port.LastSays name later (· = 0) ∧
        VirtioBlk.function.LastSays name later (· = 0))
  /-- A SCSI controller was acceptable when it was made. It is still acceptable exactly if the last
  port and the last virtual function that were said are zero, and the last number of LUNs is not
  negative. -/
  controllers : ∀ name c, run.inventory.find? .scsiController name = some c →
    ∃ e made later, run.History registry .scsiController name c e made later ∧ made.Acceptable ∧
      (c.Acceptable ↔ ScsiController.capacity.LastSays name later (0 ≤ ·) ∧
        ScsiController.port.LastSays name later (· = 0) ∧
        ScsiController.function.LastSays name later (· = 0))

/-- After every run that begins with nothing kept, whatever engine it is against, the devices and
the SCSI controllers that are kept stand to the checks of a creation as said. -/
theorem run_screens {σ : Type} (registry : Attach.Registry) (engine : σ → Call → Answer × σ)
    (steps : List Step) (s : σ) : (Run.of registry engine steps .empty s).Screens registry := by
  constructor
  · intro name d hkept
    obtain ⟨e, made, later, history⟩ := Run.exists_history steps s hkept
    have hmade : made.Acceptable := history.makes.acceptable_device history.goes
    have hfurnished : d.Furnished := hmade.furnished.of_sameIdentity history.identity
    refine ⟨e, made, later, history, hmade, hfurnished, ?_⟩
    rw [← history.part_iff VirtioBlk.port (· = 0) hmade.emulated.port,
      ← history.part_iff VirtioBlk.function (· = 0) hmade.emulated.function]
    constructor
    · intro h
      exact ⟨h.emulated.port, h.emulated.function⟩
    · rintro ⟨hport, hfunction⟩
      exact ⟨hfurnished, hport, hfunction⟩
  · intro name c hkept
    obtain ⟨e, made, later, history⟩ := Run.exists_history steps s hkept
    have hmade : made.Acceptable := history.makes.acceptable_controller
    refine ⟨e, made, later, history, hmade, ?_⟩
    rw [← history.part_iff ScsiController.capacity (0 ≤ ·) hmade.capacity,
      ← history.part_iff ScsiController.port (· = 0) hmade.emulated.port,
      ← history.part_iff ScsiController.function (· = 0) hmade.emulated.function]
    constructor
    · intro h
      exact ⟨h.capacity, h.emulated.port, h.emulated.function⟩
    · rintro ⟨hcapacity, hport, hfunction⟩
      exact ⟨hcapacity, hport, hfunction⟩

/-- Every device and every SCSI controller that is kept at the end of a run passes the checks of a
creation. -/
structure Run.StaysAcceptable (run : Run) : Prop where
  devices : ∀ name d, run.inventory.find? .virtioBlk name = some d → d.Acceptable
  controllers : ∀ name c, run.inventory.find? .scsiController name = some c → c.Acceptable

/-- A device is made, and an update puts it on port one. -/
def relocation : List Step :=
  let device : VirtioBlk := { volumeNameRef := "Malloc0" }
  let moved : VirtioBlk :=
    { device with
      name := "//storage.bridge.dev/virtioBlks/a"
      pcieId := { physicalFunction := 0, portId := 1 } }
  [⟨.virtioBlk, .create "" device "a", 0⟩, ⟨.virtioBlk, .update { resource := moved }, 0⟩]

/-- The device on port one is kept, although it could not have been made there. -/
theorem not_staysAcceptable_relocation :
    ¬ (Run.of {} Simulation.answer relocation .empty
      (Simulation.start.putVolume { name := "Malloc0" })).StaysAcceptable := by
  intro h
  have hkept : ((Run.of {} Simulation.answer relocation .empty
      (Simulation.start.putVolume { name := "Malloc0" })).inventory.virtioBlks.find?
        "//storage.bridge.dev/virtioBlks/a").map (·.pcieId.portId) = some 1 := by
    decide +kernel
  obtain ⟨d, hd, hport⟩ := Option.map_eq_some_iff.1 hkept
  have hzero : d.pcieId.portId = 0 := (h.devices _ d hd).emulated.port
  rw [hport] at hzero
  exact absurd hzero (by decide)

end StorageControl
