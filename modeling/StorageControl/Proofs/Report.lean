/-
# What the engine reports and what updates say instead

The report in a record is what the engine has said of it when it was made: the version of a
subsystem's firmware, and that a controller is active and a namespace enabled. It is not pinned, so
that every update that takes it over from the request writes something else there, or nothing. The
report in a record that is kept is the engine's exactly if nothing else was said of it last.
-/
import StorageControl.Engine.Simulation
import StorageControl.Proofs.Part

namespace StorageControl

open Engine (Answer Call Simulation)

variable {registry : Attach.Registry} {name : String} {e : Entry}

/-! ## Reports as parts of records -/

/-- The report in a record with a name, a specification and a report. -/
theorem Codec.HasField.of_report {ρ σ τ : Type} {make : String → σ → Option τ → ρ}
    {name : ρ → String} {spec : ρ → σ} {report : ρ → Option τ} (c : Codec σ) (s : Codec τ)
    (hreport : ∀ n x t, report (make n x t) = t) :
    (Codec.record <| (Codec.Fields.of ρ make)
      |>.defaulted "name" .text name ""
      |>.required "spec" c spec
      |>.nullable "status" s report).HasField ["status"] s.nullable report := by
  refine .of_record (fun r => ?_) (fun r => ?_) fun members r w hread hw => ?_
  · simp
  · simp [Assoc.find?_cons]
  · simp only [Codec.record, Codec.Fields.defaulted, Codec.Fields.required, Codec.Fields.nullable,
      Codec.Fields.decode_add_eq_some_iff, Codec.Fields.decode_of_eq_some_iff, hw,
      Option.elim_some] at hread
    obtain ⟨_, t, ⟨_, _, ⟨_, _, rfl, -, rfl⟩, -, rfl⟩, ht, rfl⟩ := hread
    rw [ht, hreport]

/-- What the engine has reported of a subsystem. -/
def Subsystem.report : Part .subsystem (Option SubsystemStatus) where
  path := ["status", "firmwareRevision"]
  get := (·.status)
  of_merge h := FieldMask.get_of_merge_report
    (Codec.HasField.of_report SubsystemSpec.codec SubsystemStatus.codec fun _ _ _ => rfl)
    (fun _ => rfl) Codec.text_flat Codec.text_lawful (fun _ _ => rfl) h
  of_identity _ _ := rfl

/-- What the engine has reported of a controller. -/
def Controller.report : Part .controller (Option ControllerStatus) where
  path := ["status", "active"]
  get := (·.status)
  of_merge h := FieldMask.get_of_merge_report
    (Codec.HasField.of_report ControllerSpec.codec ControllerStatus.codec fun _ _ _ => rfl)
    (fun _ => rfl) Codec.flag_flat Codec.flag_lawful (fun _ _ => rfl) h
  of_identity _ _ := rfl

theorem OperState.codec_lawful : OperState.codec.Lawful := by
  rintro (_ | _ | _) <;> rfl

/-- What the engine has reported of a namespace. -/
def NvmeNamespace.report : Part .nvmeNamespace (Option NvmeNamespaceStatus) where
  path := ["status", "operState"]
  get := (·.status)
  of_merge h := FieldMask.get_of_merge_report
    (Codec.HasField.of_report NvmeNamespaceSpec.codec NvmeNamespaceStatus.codec fun _ _ _ => rfl)
    (fun _ => rfl) (Codec.word_flat _ _) OperState.codec_lawful (fun _ _ => rfl) h
  of_identity _ _ := rfl

/-! ## Creations -/

/-- In an entry the engine tells its version. -/
def Entry.Tells (e : Entry) (version : Engine.Version) : Prop :=
  ∃ answer, ⟨⟨.getVersion, none⟩, answer⟩ ∈ exchanges e.events ∧
    answer.read? Engine.Version.codec = some version

/-- What is asked in an entry that makes a record makes its object. -/
theorem Entry.Makes.exists_made {k : Kind} {made : k.Record} (h : e.Makes registry k name made) :
    ∃ place draft, Made registry e.before place k draft made (exchanges e.events) := by
  cases h with
  | intro hop hname hmade hnew hkept => exact ⟨_, _, hmade⟩

/-- A subsystem is made with the version that the engine tells as its firmware. -/
theorem Entry.Makes.exists_tells {made : Subsystem} (h : e.Makes registry .subsystem name made) :
    ∃ version, e.Tells version ∧ made.status = some ⟨version.version⟩ := by
  obtain ⟨place, draft, hmade⟩ := h.exists_made
  generalize ht : exchanges e.events = t at hmade
  cases hmade with
  | @subsystem _ answer version hversion hunowned =>
    refine ⟨version, ⟨answer, ?_, hversion⟩, rfl⟩
    rw [ht]
    simp

/-- A controller is made active. -/
theorem Entry.Makes.status_controller {made : Controller}
    (h : e.Makes registry .controller name made) : made.status = some ⟨true⟩ := by
  obtain ⟨place, draft, hmade⟩ := h.exists_made
  generalize exchanges e.events = t at hmade
  cases hmade
  rfl

/-- A namespace is made enabled. -/
theorem Entry.Makes.status_nvmeNamespace {made : NvmeNamespace}
    (h : e.Makes registry .nvmeNamespace name made) : made.status = some ⟨.enabled⟩ := by
  obtain ⟨place, draft, hmade⟩ := h.exists_made
  generalize exchanges e.events = t at hmade
  cases hmade
  rfl

/-! ## Runs -/

/-- Where the reports in the records that are kept at the end of a run come from. -/
structure Run.Reports (registry : Attach.Registry) (run : Run) : Prop where
  /-- A subsystem was made with the version that the engine told then. It still has it exactly if no
  update has said something else of it last. -/
  subsystems : ∀ name s, run.inventory.find? .subsystem name = some s →
    ∃ e made later version, run.History registry .subsystem name s e made later ∧
      e.Tells version ∧ made.status = some ⟨version.version⟩ ∧
      (s.status = some ⟨version.version⟩ ↔
        Subsystem.report.LastSays name later (· = some ⟨version.version⟩))
  /-- A controller was made active. It still is exactly if no update has said something else last. -/
  controllers : ∀ name c, run.inventory.find? .controller name = some c →
    ∃ e made later, run.History registry .controller name c e made later ∧
      made.status = some ⟨true⟩ ∧
      (c.status = some ⟨true⟩ ↔ Controller.report.LastSays name later (· = some ⟨true⟩))
  /-- A namespace was made enabled. It still is exactly if no update has said something else last. -/
  namespaces : ∀ name n, run.inventory.find? .nvmeNamespace name = some n →
    ∃ e made later, run.History registry .nvmeNamespace name n e made later ∧
      made.status = some ⟨.enabled⟩ ∧
      (n.status = some ⟨.enabled⟩ ↔
        NvmeNamespace.report.LastSays name later (· = some ⟨.enabled⟩))

/-- After every run that begins with nothing kept, whatever engine it is against, the reports in the
records that are kept come from the engine or from the updates as said. -/
theorem run_reports {σ : Type} (registry : Attach.Registry) (engine : σ → Call → Answer × σ)
    (steps : List Step) (s : σ) : (Run.of registry engine steps .empty s).Reports registry := by
  constructor
  · intro name subsystem hkept
    obtain ⟨e, made, later, history⟩ := Run.exists_history steps s hkept
    obtain ⟨version, htells, hstatus⟩ := history.makes.exists_tells
    exact ⟨e, made, later, version, history, htells, hstatus,
      history.part_iff Subsystem.report (· = some ⟨version.version⟩) hstatus⟩
  · intro name c hkept
    obtain ⟨e, made, later, history⟩ := Run.exists_history steps s hkept
    have hstatus : made.status = some ⟨true⟩ := history.makes.status_controller
    exact ⟨e, made, later, history, hstatus,
      history.part_iff Controller.report (· = some ⟨true⟩) hstatus⟩
  · intro name n hkept
    obtain ⟨e, made, later, history⟩ := Run.exists_history steps s hkept
    have hstatus : made.status = some ⟨.enabled⟩ := history.makes.status_nvmeNamespace
    exact ⟨e, made, later, history, hstatus,
      history.part_iff NvmeNamespace.report (· = some ⟨.enabled⟩) hstatus⟩

/-- In the records that are kept at the end of a run stands what the engine has reported, whatever
updates there have been. -/
structure Run.StaysReported (registry : Attach.Registry) (run : Run) : Prop where
  subsystems : ∀ name s, run.inventory.find? .subsystem name = some s →
    ∃ e made later version, run.History registry .subsystem name s e made later ∧
      e.Tells version ∧ s.status = some ⟨version.version⟩
  controllers : ∀ name c, run.inventory.find? .controller name = some c →
    c.status = some ⟨true⟩
  namespaces : ∀ name n, run.inventory.find? .nvmeNamespace name = some n →
    n.status = some ⟨.enabled⟩

/-- A subsystem is made, and an update replaces it without a word on its report. -/
def replacement : List Step :=
  let subsystem : Subsystem := { spec := { nqn := "nqn.2022-09.io.spdk:one" } }
  let renumbered : Subsystem :=
    { name := "//storage.bridge.dev/subsystems/s1"
      spec := { nqn := "nqn.2022-09.io.spdk:one", serialNumber := "SN1" } }
  [⟨.subsystem, .create "" subsystem "s1", 0⟩, ⟨.subsystem, .update { resource := renumbered }, 0⟩]

/-- The subsystem is kept without the report. -/
theorem not_staysReported_replacement :
    ¬ (Run.of {} Simulation.answer replacement .empty .start).StaysReported {} := by
  intro h
  have hkept : ((Run.of {} Simulation.answer replacement .empty .start).inventory.subsystems.find?
      "//storage.bridge.dev/subsystems/s1").map (·.status) = some none := by
    decide +kernel
  obtain ⟨s, hs, hnone⟩ := Option.map_eq_some_iff.1 hkept
  obtain ⟨-, -, -, version, -, -, hstatus⟩ := h.subsystems _ s hs
  rw [hnone] at hstatus
  cases hstatus

end StorageControl
