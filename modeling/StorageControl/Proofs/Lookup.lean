/-
# Looking up what has been updated

An update revises a record that is kept, and the engine does not hear of it. When the record is looked
up then, it is as the update has answered it, but for what every lookup takes from the engine: the
numbers of a subsystem, and that a controller is active and a namespace enabled. So a subsystem that
gets another serial number is still looked up with the one that the engine has.
-/
import StorageControl.Proofs.SubsystemRow
import StorageControl.Proofs.Overlay

namespace StorageControl

open Engine (NamespaceRow Simulation)
open Engine.Script (bind_eq_ok_iff demand_eq_ok_iff)

namespace World

variable {registry : Attach.Registry} {w : World} {k : Kind} {name : String} {kept told : k.Record}

/-! ## Updates -/

/-- An update of a record that is kept, if it succeeds, keeps what it answers and leaves the engine
alone. -/
theorem act_update {request : UpdateRequest k.Record} {bits : Nat} {updated : k.Record}
    (hinv : w.inventory.All Placed)
    (hkept : w.inventory.find? k (Resource.name request.resource) = some kept)
    (hupdate : w.result registry ⟨k, .update request, bits⟩ = .ok (.record updated)) :
    k ≠ .scsiLun ∧ Inventory.revise kept request = .ok updated ∧
      w.act registry (.take ⟨k, .update request, bits⟩) =
        { w with inventory := w.inventory.keep k (Resource.name request.resource) updated } := by
  have hname := (hinv k _ kept hkept).nameOf
  rcases @Inventory.run_update_of_kept registry _ _ _ (Uuid.text bits) Simulation.answer w.engine _ _
    hname hkept with ⟨e, hrun, -⟩ | ⟨revised, hrun, hk, hrevise⟩
  · have hresult : w.result registry ⟨k, .update request, bits⟩ = .error e :=
      congrArg Procedure.Course.result hrun
    cases hresult.symm.trans hupdate
  · have hresult : w.result registry ⟨k, .update request, bits⟩ = .ok (.record revised) :=
      congrArg Procedure.Course.result hrun
    cases hresult.symm.trans hupdate
    refine ⟨hk, hrevise, ?_⟩
    have hevents := congrArg Procedure.Course.events hrun
    have hengine := congrArg Procedure.Course.engine hrun
    rw [act, Step.take]
    simp only [Step.fresh, hevents, hengine, Inventory.after_changed, Inventory.after_nil,
      Inventory.apply]

/-- An update does not strand the children of a parent. -/
theorem not_strands_update {request : UpdateRequest k.Record} {bits : Nat} {updated : k.Record}
    (hinv : w.inventory.All Placed)
    (hkept : w.inventory.find? k (Resource.name request.resource) = some kept)
    (hupdate : w.result registry ⟨k, .update request, bits⟩ = .ok (.record updated)) (j : Kind)
    (parent : String) :
    ¬ w.Strands registry (.take ⟨k, .update request, bits⟩) j parent := by
  rintro ⟨hup, hdown, -⟩
  rw [(act_update hinv hkept hupdate).2.2, Inventory.hasParent_keep_of_find? hkept, hup] at hdown
  cases hdown

/-! ## Lookups -/

/-- What looking a record up after some actions tells of the record that is kept. A subsystem has the
numbers that it was made with, a controller is active, and a namespace is enabled. Of a namespace
this is said as long as its subsystem has not been deleted while namespaces of it were kept. -/
def Tells (registry : Attach.Registry) (actions : List Action) :
    (k : Kind) → (kept told : k.Record) → Prop
  | .subsystem, s, told =>
    ∃ made, MadeUnder registry .subsystem s.name made actions ∧
      told = { s with
        spec.serialNumber := made.spec.serialNumber
        spec.modelNumber := made.spec.modelNumber
        spec.maxNamespaces := made.spec.maxNamespaces }
  | .controller, c, told => told = { c with status := some ⟨true⟩ }
  | .nvmeNamespace, n, told =>
    ¬ Stranded registry actions .nvmeNamespace n.spec.subsystemNameRef →
      told = { n with status := some ⟨.enabled⟩ }
  | .virtioBlk, kept, told | .scsiController, kept, told | .scsiLun, kept, told => told = kept

/-- After any actions, a record that is looked up tells what is kept, but for what it takes from the
engine. -/
theorem tells_of_get {actions : List Action} {bits : Nat} (hk : k ≠ .scsiLun)
    (hkept : (after registry actions).inventory.find? k name = some kept)
    (hget : (after registry actions).result registry ⟨k, .get name, bits⟩ = .ok (.record told)) :
    Tells registry actions k kept told := by
  have hroot := rooted_after registry actions
  have hlabelled := labelled_after registry actions
  have hplaced := placed_after registry actions k name kept hkept
  have hrefresh := Inventory.refresh_of_get hkept hplaced hget
  cases k with
  | subsystem =>
    replace hrefresh : ((Engine.subsystems.bind _).run Simulation.answer
      (after registry actions).engine).1 = .ok told := hrefresh
    rw [Engine.run_subsystems_bind] at hrefresh
    obtain ⟨row, hrow, hend⟩ := bind_eq_ok_iff.1 hrefresh
    rw [demand_eq_ok_iff, hlabelled.rowOf?_values, ← row?_of_find? hkept] at hrow
    cases hend
    obtain ⟨made, hmade, hnumbers⟩ := numbers_after hkept hrow
    refine ⟨made, ?_, ?_⟩
    · rw [show kept.name = name from hplaced.key]
      exact hmade
    · rw [Subsystems.withRow, hnumbers.serialNumber, hnumbers.modelNumber, hnumbers.maxNamespaces]
  | controller =>
    obtain ⟨s, -, hrefresh⟩ := bind_eq_ok_iff.1 hrefresh
    obtain ⟨listener, -, hrefresh⟩ := bind_eq_ok_iff.1 hrefresh
    obtain ⟨rows, -, hrefresh⟩ := bind_eq_ok_iff.1 hrefresh
    split at hrefresh
    · cases hrefresh
      rfl
    · cases hrefresh
  | nvmeNamespace =>
    intro hno
    obtain ⟨s, hs, hrefresh⟩ := bind_eq_ok_iff.1 hrefresh
    rw [Inventory.demand] at hs hrefresh
    rw [demand_eq_ok_iff] at hs
    rw [hs] at hrefresh
    replace hrefresh : ((Engine.subsystems.bind _).run Simulation.answer
      (after registry actions).engine).1 = .ok told := hrefresh
    rw [Engine.run_subsystems_bind] at hrefresh
    obtain ⟨row, hrow, hrefresh⟩ := bind_eq_ok_iff.1 hrefresh
    rw [demand_eq_ok_iff, hlabelled.rowOf?_values] at hrow
    obtain ⟨found, hfound, hend⟩ := bind_eq_ok_iff.1 hrefresh
    rw [demand_eq_ok_iff] at hfound
    cases hend
    -- The row that is found is the one of the namespace, and it fits.
    have hattached := attached_of_row? ((row?_of_find? hs).trans hrow)
    have hmem : found ∈ (after registry actions).attached kept.spec.subsystemNameRef := by
      rw [hattached]
      exact List.mem_of_find?_eq_some hfound
    have hnsid : found.nsid = kept.spec.hostNsid := by simpa using List.find?_some hfound
    rw [(fits_after hno hkept hmem hnsid).withRow]
  | virtioBlk =>
    obtain ⟨row, hrow, hctrlr, -, hfits⟩ :=
      exists_row_of_backed hroot.vhosts.blksBacked hlabelled hkept
    replace hrefresh : ((Engine.Script.bind _ _).run Simulation.answer
      (after registry actions).engine).1 = .ok told := hrefresh
    rw [Engine.run_vhostController_bind hrow, backendOf?_singleton hctrlr] at hrefresh
    obtain ⟨block, hblock, hend⟩ := bind_eq_ok_iff.1 hrefresh
    rw [demand_eq_ok_iff, Option.bind_some] at hblock
    cases hend
    have hvolume : block.bdev = kept.volumeNameRef := by
      have hbdev := hfits.1
      rw [hblock] at hbdev
      exact Option.some.inj hbdev
    show { kept with volumeNameRef := block.bdev } = kept
    rw [hvolume]
  | scsiController =>
    obtain ⟨targets, -, hrefresh⟩ := bind_eq_ok_iff.1 hrefresh
    obtain ⟨rows, -, hend⟩ := bind_eq_ok_iff.1 hrefresh
    cases hend
    rfl
  | scsiLun => exact absurd rfl hk

/-! ## Lookups after updates -/

theorem Tells.of_update {actions : List Action} {request : UpdateRequest k.Record} {bits : Nat}
    {updated : k.Record}
    (hkept : (after registry actions).inventory.find? k (Resource.name request.resource) =
      some kept)
    (hupdate : (after registry actions).result registry ⟨k, .update request, bits⟩ =
      .ok (.record updated))
    (h : Tells registry (actions ++ [.take ⟨k, .update request, bits⟩]) k updated told) :
    Tells registry actions k updated told := by
  have hinv := placed_after registry actions
  cases k with
  | subsystem =>
    obtain ⟨made, hmade, htold⟩ := h
    have hname : updated.name = Resource.name request.resource :=
      (Inventory.name_of_revise (act_update hinv hkept hupdate).2.1).trans (hinv _ _ _ hkept).key
    rw [← hname] at hkept
    exact ⟨made, hmade.of_concat hkept, htold⟩
  | nvmeNamespace =>
    intro hno
    apply h
    rw [stranded_concat]
    rintro (hstranded | hstrands)
    · exact hno hstranded
    · exact not_strands_update hinv hkept hupdate _ _ hstrands
  | controller | virtioBlk | scsiController | scsiLun => exact h

/-- After any actions, when an update of a record that is kept has succeeded and the record is looked up
next, the lookup tells what the update has answered, but for what it takes from the engine. -/
theorem get_tells_updated (registry : Attach.Registry) (actions : List Action) {k : Kind}
    {request : UpdateRequest k.Record} {bits bits' : Nat} {kept updated told : k.Record}
    (hkept : (after registry actions).inventory.find? k (Resource.name request.resource) =
      some kept)
    (hupdate : (after registry actions).result registry ⟨k, .update request, bits⟩ =
      .ok (.record updated))
    (hget : (after registry (actions ++ [.take ⟨k, .update request, bits⟩])).result registry
      ⟨k, .get (Resource.name request.resource), bits'⟩ = .ok (.record told)) :
    Tells registry actions k updated told := by
  obtain ⟨hk, -, hact⟩ := act_update (placed_after registry actions) hkept hupdate
  have hnow : (after registry (actions ++ [.take ⟨k, .update request, bits⟩])).inventory.find? k
      (Resource.name request.resource) = some updated := by
    rw [after_concat, hact, Inventory.find?_keep_self]
  exact .of_update hkept hupdate (tells_of_get hk hnow hget)

/-- A subsystem is made, and a namespace under it. -/
def inhabited : List Action :=
  let subsystem : Subsystem := { spec := { nqn := "nqn.2022-09.io.spdk:one" } }
  let child : NvmeNamespace := { spec := { volumeNameRef := "Malloc0" } }
  [.take ⟨.subsystem, .create "" subsystem "s1", 0⟩,
   .take ⟨.nvmeNamespace, .create "//storage.bridge.dev/subsystems/s1" child "a", 0⟩]

/-- A namespace that is replaced without a word on its state is looked up as it was answered, and
enabled. -/
theorem get_tells_updated_namespace :
    let request : UpdateRequest NvmeNamespace :=
      { resource :=
          { name := "//storage.bridge.dev/subsystems/s1/namespaces/a"
            spec := { volumeNameRef := "Malloc0" } } }
    ∃ updated told : NvmeNamespace,
      (after {} inhabited).result {} ⟨.nvmeNamespace, .update request, 0⟩ =
        .ok (.record updated) ∧
      (after {} (inhabited ++ [.take ⟨.nvmeNamespace, .update request, 0⟩])).result {}
        ⟨.nvmeNamespace, .get "//storage.bridge.dev/subsystems/s1/namespaces/a", 0⟩ =
          .ok (.record told) ∧
      updated.status = none ∧ told = { updated with status := some ⟨.enabled⟩ } := by
  intro request
  let made : NvmeNamespace :=
    { name := "//storage.bridge.dev/subsystems/s1/namespaces/a"
      spec :=
        { subsystemNameRef := "//storage.bridge.dev/subsystems/s1"
          hostNsid := 1
          volumeNameRef := "Malloc0" }
      status := some ⟨.enabled⟩ }
  have hkept : (after {} inhabited).inventory.find? .nvmeNamespace
      "//storage.bridge.dev/subsystems/s1/namespaces/a" = some made := by
    decide +kernel
  have hupdate : (after {} inhabited).result {} ⟨.nvmeNamespace, .update request, 0⟩ =
      .ok (.record { made with status := none }) := by
    decide +kernel
  have hget : (after {} (inhabited ++ [.take ⟨.nvmeNamespace, .update request, 0⟩])).result {}
      ⟨.nvmeNamespace, .get "//storage.bridge.dev/subsystems/s1/namespaces/a", 0⟩ =
        .ok (.record made) := by
    decide +kernel
  -- Nothing is deleted, so that nothing is stranded.
  have hno : ¬ Stranded {} inhabited .nvmeNamespace "//storage.bridge.dev/subsystems/s1" := by
    rintro ⟨_ | ⟨first, _ | ⟨second, earlier⟩⟩, a, later, heq, hup, hdown, -⟩
    · have hnone : (after {} []).inventory.hasParent .nvmeNamespace
          "//storage.bridge.dev/subsystems/s1" = false := rfl
      cases hnone.symm.trans hup
    · cases heq
      have hthere : (after {} inhabited).inventory.hasParent .nvmeNamespace
          "//storage.bridge.dev/subsystems/s1" = true := by
        decide +kernel
      cases hthere.symm.trans hdown
    · cases earlier <;> cases heq
  exact ⟨_, _, hupdate, hget, rfl, get_tells_updated {} inhabited hkept hupdate hget hno⟩

/-- A record that is looked up right after an update is as the update has answered it. -/
def GivesBack (registry : Attach.Registry) (actions : List Action) {k : Kind}
    (request : UpdateRequest k.Record) (bits bits' : Nat) : Prop :=
  ∀ kept updated told : k.Record,
    (after registry actions).inventory.find? k (Resource.name request.resource) = some kept →
    (after registry actions).result registry ⟨k, .update request, bits⟩ =
      .ok (.record updated) →
    (after registry (actions ++ [.take ⟨k, .update request, bits⟩])).result registry
      ⟨k, .get (Resource.name request.resource), bits'⟩ = .ok (.record told) → told = updated

/-- A subsystem that gets a serial number is looked up without it. -/
theorem not_givesBack_serialNumber :
    ¬ GivesBack (k := .subsystem) {} inhabited
      { resource :=
          { name := "//storage.bridge.dev/subsystems/s1"
            spec := { nqn := "nqn.2022-09.io.spdk:one", serialNumber := "SN1" } }
        updateMask := some { paths := ["spec.serialNumber"] } } 0 0 := by
  intro h
  let made : Subsystem :=
    { name := "//storage.bridge.dev/subsystems/s1"
      spec := { nqn := "nqn.2022-09.io.spdk:one" }
      status := some ⟨"SPDK v23.01"⟩ }
  have hsame := h made { made with spec.serialNumber := "SN1" } made (by decide +kernel)
    (by decide +kernel) (by decide +kernel)
  exact absurd hsame (by decide)

end World

end StorageControl
