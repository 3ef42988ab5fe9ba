/-
# Rows laid over records

The engine may leave an identifier of a namespace out of its row, and the unit out of a SCSI target.
When a record is looked up, what its row leaves out is taken from the record. A listing takes only
the name from the record, and nothing else. So the record that is looked up is in the listing exactly
when its row has a value wherever the record has one.
-/
import StorageControl.Proofs.Agreement

namespace StorageControl

open Engine (Answer Call Script Simulation)

/-! ## Overlays -/

namespace Kind

/-- A record with its row laid over it, as it is when it is looked up. -/
def overlay : (k : Kind) → k.Row → k.Record → k.Record
  | .subsystem, row, s => { s with spec := Subsystems.withRow s.spec row }
  | .controller, row, _ => row
  | .nvmeNamespace, row, n =>
    { n with spec := Namespaces.withRow n.spec row, status := some ⟨.enabled⟩ }
  | .virtioBlk, row, d =>
    { d with volumeNameRef := (row.backend.block.map (·.bdev)).getD d.volumeNameRef }
  | .scsiController, _, c => c
  | .scsiLun, row, l =>
    { l with volumeNameRef := (ScsiLuns.volumeOf? row).getD l.volumeNameRef }

/-- The row has a value wherever the record has one that a row may leave out. -/
def Covers : (k : Kind) → k.Row → k.Record → Prop
  | .nvmeNamespace, row, n =>
    (row.uuid = none → n.spec.uuid = none) ∧ (row.nguid = none → n.spec.nguid = none) ∧
      (row.eui64 = none → n.spec.eui64 = none)
  | .scsiLun, row, l => ScsiLuns.volumeOf? row = none → l.volumeNameRef = ""
  | .subsystem, _, _ | .controller, _, _ | .virtioBlk, _, _ | .scsiController, _, _ => True

variable {k : Kind} {row : k.Row} {record : k.Record}

theorem recordKey_overlay (hk : k ∈ numbered) :
    k.recordKey (k.overlay row record) = k.recordKey record := by
  cases k with
  | nvmeNamespace | scsiLun => rfl
  | subsystem | controller | virtioBlk | scsiController => exact absurd hk (by decide)

end Kind

/-- What is there or else in another place is what is there, if there is nothing in the other place
when there is nothing there. -/
theorem eq_or_iff {α : Type} {a b : Option α} : a = a.or b ↔ (a = none → b = none) := by
  cases a <;> simp [eq_comm]

namespace Inventory

variable {registry : Attach.Registry} {inv : Inventory} {k : Kind} {name parent : String}
  {row : k.Row} {record : k.Record}

theorem recordKey_item (hk : k ∈ Kind.numbered) :
    k.recordKey (inv.item k parent row) = k.rowKey row := by
  cases k with
  | nvmeNamespace | scsiLun => rfl
  | subsystem | controller | virtioBlk | scsiController => exact absurd hk (by decide)

/-- The item for the row of a record is the record with the row laid over it, if the row covers the
record, and only then. -/
theorem item_eq_overlay_iff (hk : k ∈ Kind.numbered) (hparent : k.reference? record = some parent)
    (hknown : inv.known? k parent row = some record) :
    inv.item k parent row = k.overlay row record ↔ k.Covers row record := by
  cases k with
  | nvmeNamespace =>
    obtain rfl : record.spec.subsystemNameRef = parent := Option.some.inj hparent
    rw [known?] at hknown
    have hnsid : record.spec.hostNsid = row.nsid := by simpa using List.find?_some hknown
    obtain ⟨name, ⟨reference, nsid, volume, uuid, nguid, eui64⟩, status⟩ := record
    obtain rfl : nsid = row.nsid := hnsid
    simp only [item, Namespaces.ofRow, hknown, Kind.overlay, Namespaces.withRow, Kind.Covers]
    simp [eq_or_iff]
  | scsiLun =>
    obtain rfl : record.controllerNameRef = parent := Option.some.inj hparent
    rw [known?] at hknown
    have htarget : record.targetNum = row.scsiDevNum := by simpa using List.find?_some hknown
    obtain ⟨name, reference, volume, target⟩ := record
    obtain rfl : target = row.scsiDevNum := htarget
    simp only [item, ScsiLuns.ofRow, hknown, Kind.overlay, Kind.Covers]
    cases ScsiLuns.volumeOf? row <;> simp [eq_comm]
  | subsystem | controller | virtioBlk | scsiController => exact absurd hk (by decide)

/-- The record for a numbered row is the one that is kept with the key of the row, if no other one that
is kept under the parent has the key. -/
theorem known?_of_alone (hinv : inv.All Placed) (hk : k ∈ Kind.numbered)
    (hkept : inv.find? k name = some record) (hparent : k.reference? record = some parent)
    (halone : ∀ other q, inv.find? k other = some q → k.reference? q = some parent →
      k.recordKey q = k.recordKey record → other = name)
    (hrow : k.rowKey row = k.recordKey record) : inv.known? k parent row = some record := by
  obtain ⟨q, hq⟩ := Option.isSome_iff_exists.1
    (known?_isSome_of_reference? hk hkept hparent hrow.symm)
  obtain ⟨hfind, hkey⟩ := find?_of_known? hinv hq
  have hname : Resource.name q = name :=
    halone _ q hfind (reference?_of_known? hk hq) (hkey.trans hrow)
  rw [hname, hkept] at hfind
  rw [hq, ← hfind]

end Inventory

/-! ## Looking up and listing -/

namespace Engine.Script

variable {α β σ : Type} {engine : σ → Call → Answer × σ} {s : σ}

/-- Scripts in a row come to what the second one comes to with the result of the first. -/
theorem bind_eq_ok_iff {x : Script α} {f : α → Script β} {b : β} :
    ((x.bind f).run engine s).1 = .ok b ↔
      ∃ a, (x.run engine s).1 = .ok a ∧ ((f a).run engine (x.run engine s).2).1 = .ok b := by
  induction x generalizing s with
  | done a => simp [bind, run]
  | failed e => simp [bind, run]
  | call request resume ih => exact ih _

theorem demand_eq_ok_iff {fault : Fault} {value : Option α} {a : α} :
    ((demand fault value).run engine s).1 = .ok a ↔ value = some a := by
  cases value <;> simp [demand, run]

end Engine.Script

open Engine.Script (bind_eq_ok_iff demand_eq_ok_iff)

namespace Inventory

variable {σ : Type} {registry : Attach.Registry} {engine : σ → Call → Answer × σ} {s : σ}
  {inv : Inventory} {k : Kind} {name parent : String} {listed : List k.Row} {record r : k.Record}

/-- Looking up a record with a numbered row lays its row over it. -/
theorem exists_overlay_of_refresh (hk : k ∈ Kind.numbered)
    (hparent : k.reference? record = some parent)
    (hrows : ((inv.rows registry k parent).run engine s).1 = .ok listed)
    (hget : (((k.family registry).refresh inv name record).run engine s).1 = .ok r) :
    ∃ row ∈ listed, k.rowKey row = k.recordKey record ∧ r = k.overlay row record := by
  -- Both ask for the parent first, and then the engine the same question.
  cases k with
  | nvmeNamespace =>
    obtain rfl : record.spec.subsystemNameRef = parent := Option.some.inj hparent
    obtain ⟨p, hp, hrows⟩ := bind_eq_ok_iff.1 hrows
    obtain ⟨all, hall, hrows⟩ := bind_eq_ok_iff.1 hrows
    obtain ⟨owner, howner, hrows⟩ := bind_eq_ok_iff.1 hrows
    cases hrows
    obtain ⟨p', hp', hget⟩ := bind_eq_ok_iff.1 hget
    cases hp.symm.trans hp'
    obtain ⟨all', hall', hget⟩ := bind_eq_ok_iff.1 hget
    cases hall.symm.trans hall'
    obtain ⟨owner', howner', hget⟩ := bind_eq_ok_iff.1 hget
    rw [demand_eq_ok_iff] at howner howner'
    cases howner.symm.trans howner'
    obtain ⟨row, hrow, hget⟩ := bind_eq_ok_iff.1 hget
    rw [demand_eq_ok_iff] at hrow
    cases hget
    have hnsid : row.nsid = record.spec.hostNsid := by simpa using List.find?_some hrow
    exact ⟨row, List.mem_of_find?_eq_some hrow, by rw [Kind.rowKey, Kind.recordKey, hnsid], rfl⟩
  | scsiLun =>
    obtain rfl : record.controllerNameRef = parent := Option.some.inj hparent
    obtain ⟨p, hp, hrows⟩ := bind_eq_ok_iff.1 hrows
    obtain ⟨targets, htargets, hrows⟩ := bind_eq_ok_iff.1 hrows
    rw [demand_eq_ok_iff] at hrows
    obtain ⟨p', hp', hget⟩ := bind_eq_ok_iff.1 hget
    obtain ⟨targets', htargets', hget⟩ := bind_eq_ok_iff.1 hget
    cases htargets.symm.trans htargets'
    obtain ⟨row, hrow, hget⟩ := bind_eq_ok_iff.1 hget
    rw [demand_eq_ok_iff, hrows, Option.bind_some] at hrow
    cases hget
    have htarget : row.scsiDevNum = record.targetNum := by simpa using List.find?_some hrow
    exact ⟨row, List.mem_of_find?_eq_some hrow, by rw [Kind.rowKey, Kind.recordKey, htarget], rfl⟩
  | subsystem | controller | virtioBlk | scsiController => exact absurd hk (by decide)

end Inventory

/-! ## Runs -/

/-- After every run that begins with nothing kept, whatever engine it is against: when a namespace or
a LUN is looked up, and no other one under its parent has its number, then the unpaged listing of the
parent, with the same answer of the engine and different numbers in it, holds the record that has
been looked up exactly when its row covers the record that is kept. -/
theorem run_mem_items_iff {σ τ : Type} (registry : Attach.Registry)
    (engine : σ → Call → Answer × σ) (steps : List Step) (s : σ)
    (engine' : τ → Call → Answer × τ) (s' : τ) (fresh fresh' : String) {k : Kind}
    (hk : k ∈ Kind.numbered) {inv : Inventory}
    (hrun : (Run.of registry engine steps .empty s).inventory = inv) {name parent : String}
    {record r : k.Record} {rows : List k.Row} (hkept : inv.find? k name = some record)
    (hparent : k.reference? record = some parent)
    (halone : ∀ other q, inv.find? k other = some q → k.reference? q = some parent →
      k.recordKey q = k.recordKey record → other = name)
    (hrows : ((Procedure.ofScript (inv.rows registry k parent)).run engine' s').result = .ok rows)
    (hkeys : (rows.map k.rowKey).Nodup)
    (hget : ((inv.perform registry fresh (.get name : Operation k)).run engine' s').result =
      .ok (.record r)) :
    ∃ items, ((inv.perform registry fresh' (.list { parent } : Operation k)).run engine'
        s').result = .ok (.page ⟨items, ""⟩) ∧
      ∃ row ∈ rows, k.rowKey row = k.recordKey record ∧ (r ∈ items ↔ k.Covers row record) := by
  have hinv : inv.All Placed := hrun ▸ Run.placed steps s (Inventory.all_empty Placed)
  have hplaced := hinv k name record hkept
  have hexplicit : Place.parentOf k parent "" = .ok parent := by
    have hfound := hplaced.parentOf
    rwa [hparent] at hfound
  obtain ⟨items, hlist, hperm⟩ := Inventory.exists_items_of_rows fresh' hexplicit hrows
  rw [Procedure.result_ofScript] at hrows
  have hrefresh := Inventory.refresh_of_get hkept hplaced hget
  obtain ⟨row, hrow, hkey, rfl⟩ :=
    Inventory.exists_overlay_of_refresh hk hparent hrows hrefresh
  have hknown := Inventory.known?_of_alone hinv hk hkept hparent halone hkey
  refine ⟨items, hlist, row, hrow, hkey, ?_⟩
  rw [hperm.mem_iff, ← Inventory.item_eq_overlay_iff hk hparent hknown]
  constructor
  · intro hmem
    obtain ⟨other, hother, hitem⟩ := List.mem_map.1 hmem
    -- An item has the number of its row, so that the row is the one of the record.
    have hsame : k.rowKey other = k.rowKey row := by
      rw [← Inventory.recordKey_item hk, hitem, Kind.recordKey_overlay hk, hkey]
    rwa [List.inj_on_of_nodup_map hkeys hother hrow hsame] at hitem
  · exact fun hitem => List.mem_map.2 ⟨row, hrow, hitem⟩

/-- A subsystem is made, and a namespace under it, which has an identifier of its own. -/
def identifying : List Step :=
  [⟨.subsystem, .create "" { spec := { nqn := "nqn.2022-09.io.spdk:one" } } "s1", 0⟩,
   ⟨.nvmeNamespace, .create "//storage.bridge.dev/subsystems/s1"
     { spec :=
        { volumeNameRef := "Malloc0"
          uuid := some "1b4e28ba-2fa1-11d2-883f-0016d3cca427" } } "a", 0⟩]

/-- An engine that lists one subsystem with one namespace. -/
def listing (row : Engine.NamespaceRow) (_ : Unit) (_ : Call) : Answer × Unit :=
  (.ok (Engine.SubsystemRow.codec.list.encode
    [{ nqn := "nqn.2022-09.io.spdk:one", namespaces := [row] }]), ())

/-- The namespace with its identifier, as it is kept. -/
def identified : NvmeNamespace where
  name := "//storage.bridge.dev/subsystems/s1/namespaces/a"
  spec :=
    { subsystemNameRef := "//storage.bridge.dev/subsystems/s1"
      hostNsid := 1
      volumeNameRef := "Malloc0"
      uuid := some "1b4e28ba-2fa1-11d2-883f-0016d3cca427" }
  status := some ⟨.enabled⟩

/-- If the row has the identifier too, the namespace is listed as it is looked up. -/
theorem mem_items_identified :
    let inv := (Run.of {} Simulation.answer identifying .empty .start).inventory
    let engine := listing
      { nsid := 1
        bdevName := "Malloc0"
        uuid := some "1b4e28ba-2fa1-11d2-883f-0016d3cca427" }
    ∃ items, ((inv.perform {} "" (.list { parent := "//storage.bridge.dev/subsystems/s1" } :
        Operation .nvmeNamespace)).run engine ()).result = .ok (.page ⟨items, ""⟩) ∧
      identified ∈ items := by
  intro inv engine
  let row : Engine.NamespaceRow :=
    { nsid := 1
      bdevName := "Malloc0"
      uuid := some "1b4e28ba-2fa1-11d2-883f-0016d3cca427" }
  have hkept : inv.find? .nvmeNamespace "//storage.bridge.dev/subsystems/s1/namespaces/a" =
      some identified := by
    decide +kernel
  have hnames : inv.namespaces.keys = ["//storage.bridge.dev/subsystems/s1/namespaces/a"] := by
    decide +kernel
  have halone {other : String} {q : NvmeNamespace}
      (hq : inv.find? .nvmeNamespace other = some q) :
      other = "//storage.bridge.dev/subsystems/s1/namespaces/a" := by
    have hmem : other ∈ inv.namespaces.keys := Table.mem_keys_of_find? hq
    rwa [hnames, List.mem_singleton] at hmem
  have hrows : ((Procedure.ofScript (inv.rows {} .nvmeNamespace
      "//storage.bridge.dev/subsystems/s1")).run engine ()).result = .ok [row] := by
    decide +kernel
  have hget : ((inv.perform {} "" (.get "//storage.bridge.dev/subsystems/s1/namespaces/a" :
      Operation .nvmeNamespace)).run engine ()).result = .ok (.record identified) := by
    decide +kernel
  obtain ⟨items, hlist, found, hfound, -, hmem⟩ := run_mem_items_iff {} Simulation.answer identifying
    .start engine () "" "" (by decide) rfl hkept rfl (fun other q hq _ _ => halone hq) hrows
    (by decide +kernel) hget
  obtain rfl := List.mem_singleton.1 hfound
  exact ⟨items, hlist, hmem.2 ⟨by decide, by decide, by decide⟩⟩

/-- If the row lacks the identifier, the namespace is looked up with it and listed without it. -/
theorem not_mem_items_blank :
    let inv := (Run.of {} Simulation.answer identifying .empty .start).inventory
    let engine := listing { nsid := 1, bdevName := "Malloc0" }
    ((inv.perform {} "" (.get "//storage.bridge.dev/subsystems/s1/namespaces/a" :
        Operation .nvmeNamespace)).run engine ()).result = .ok (.record identified) ∧
      ∃ items, ((inv.perform {} "" (.list { parent := "//storage.bridge.dev/subsystems/s1" } :
          Operation .nvmeNamespace)).run engine ()).result = .ok (.page ⟨items, ""⟩) ∧
        identified ∉ items := by
  intro inv engine
  have hparent : Place.parentOf .nvmeNamespace "//storage.bridge.dev/subsystems/s1" "" =
      .ok "//storage.bridge.dev/subsystems/s1" := by
    decide +kernel
  have hrows : ((Procedure.ofScript (inv.rows {} .nvmeNamespace
      "//storage.bridge.dev/subsystems/s1")).run engine ()).result =
        .ok [{ nsid := 1, bdevName := "Malloc0" }] := by
    decide +kernel
  obtain ⟨items, hlist, hperm⟩ := Inventory.exists_items_of_rows "" hparent hrows
  refine ⟨by decide +kernel, items, hlist, ?_⟩
  rw [hperm.mem_iff]
  decide +kernel

end StorageControl
