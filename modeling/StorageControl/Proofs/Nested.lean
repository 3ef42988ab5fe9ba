/-
# How slots are filled and cleared

A nested record that is made fills a free slot of its parent, and one that is dropped clears its
slot. A parent that comes has no slots, and one that goes takes its slots with it.
-/
import StorageControl.Proofs.Contents
import StorageControl.Proofs.Slot

namespace StorageControl

open Engine (NamespaceRow TargetRow)
open Engine.Simulation (SameObjects)
open Text (Whole)

namespace World

variable {registry : Attach.Registry} {w w' : World}

/-! ## Nested records -/

section Rows

variable {α : Type} {rows : List α} {slot : α → Slot} {s : Slot} {p : α → Bool} {parent : String}
  {k : Kind}

/-- A row is added whose slot no other has. -/
theorem fills_of_rows (hp : ∀ a, p a = decide (slot a = s)) (hfree : rows.any p = false) {added : α}
    (hadded : slot added = s) (hbefore : w.slots parent k = rows.map slot)
    (hafter : w'.slots parent k = (rows ++ [added]).map slot)
    (hother : ∀ q j, ¬ (q = parent ∧ j = k) → w'.slots q j = w.slots q j) :
    Fills w w' parent k s where
  free := by
    rw [hbefore]
    intro hmem
    obtain ⟨a, ha, hslot⟩ := List.mem_map.1 hmem
    apply List.any_eq_false.1 hfree a ha
    rw [hp, hslot, decide_eq_true rfl]
  filled := by
    rw [hafter, hbefore, List.map_append, List.map_singleton, hadded]
  other := hother

/-- The rows with a slot are taken out. -/
theorem clears_of_rows (hp : ∀ a, p a = decide (slot a = s)) (hused : rows.any p = true)
    (hbefore : w.slots parent k = rows.map slot)
    (hafter : w'.slots parent k = (rows.filter fun a => !p a).map slot)
    (hother : ∀ q j, ¬ (q = parent ∧ j = k) → w'.slots q j = w.slots q j) :
    Clears w w' parent k s where
  filled := by
    obtain ⟨a, ha, hpa⟩ := List.any_eq_true.1 hused
    rw [hp, decide_eq_true_iff] at hpa
    rw [hbefore]
    exact List.mem_map.2 ⟨a, ha, hpa⟩
  cleared := by
    rw [hafter, hbefore, List.filter_map]
    congr 1
    apply List.filter_congr
    intro a _
    simp [hp]
  other := hother

end Rows

/-- The vhost controllers and the SCSI controllers that are kept stay. -/
theorem targets?_of_vhosts (hkept : w'.inventory.scsiControllers = w.inventory.scsiControllers)
    (hvhosts : w'.engine.vhosts = w.engine.vhosts) (name : String) :
    w'.targets? name = w.targets? name :=
  targets?_eq (congrArg (Table.find? · name) hkept) fun _ _ => by rw [hvhosts]

/-- The subsystems stay, those that are kept and those of the engine. -/
theorem row?_of_subsystems (hkept : w'.inventory.subsystems = w.inventory.subsystems)
    (hsubsystems : w'.engine.subsystems = w.engine.subsystems) (name : String) :
    w'.row? name = w.row? name :=
  row?_eq (congrArg (Table.find? · name) hkept) fun _ _ => by rw [hsubsystems]

/-- A nested record that is made fills a free slot of its parent. -/
theorem fills_of_gain (h : w.Rooted) {k owner : Kind} (hk : k.parent? = some owner) {place : Place}
    {record : k.Record} (hinventory : w'.inventory = w.inventory.keep k place.name record)
    (hgain : Gain registry w.inventory place w.engine w'.engine k record) :
    ∃ slot, slotOf? registry k record = some slot ∧ slot.usable ∧
      (k.family registry).reference record = place.parent ∧
      (w.inventory.find? owner place.parent).isSome ∧ Fills w w' place.parent k slot := by
  have hsame {j : Kind} (hj : j ≠ k) : w'.inventory.table j = w.inventory.table j := by
    rw [hinventory, Inventory.table_keep_of_ne _ hj]
  cases hgain with
  | @controller c p listener row hname hreference hparent hlistener hrow hfree hsubsystems
      hvhosts =>
    cases hk
    have hsubsystem := hsame (j := .subsystem) (by decide)
    have hcontroller := hsame (j := .scsiController) (by decide)
    have hrow := (row?_of_find? hparent).trans hrow
    obtain ⟨hslots, hother⟩ := slots_of_listenAddresses hrow
      (row?_rewrite h hsubsystem hparent hsubsystems) (targets?_of_vhosts hcontroller hvhosts)
    refine ⟨_, slotOf?_of_listener hlistener, rfl, hreference, by rw [hparent]; rfl, ?_⟩
    exact fills_of_rows (fun a => a.sameEndpoint_eq _) hfree rfl (slots_controller_of_row? hrow)
      hslots hother
  | @nvmeNamespace n p row attached hreference hparent hrow hfree hpos hnsid hsubsystems
      hvhosts =>
    cases hk
    have hsubsystem := hsame (j := .subsystem) (by decide)
    have hcontroller := hsame (j := .scsiController) (by decide)
    have hrow := (row?_of_find? hparent).trans hrow
    obtain ⟨hslots, hother⟩ := slots_of_namespaces hrow
      (row?_rewrite h hsubsystem hparent hsubsystems) (targets?_of_vhosts hcontroller hvhosts)
    refine ⟨_, rfl, decide_eq_true hpos, hreference, by rw [hparent]; rfl, ?_⟩
    exact fills_of_rows (fun a => a.nsid_beq _) hfree (congrArg Slot.nsid hnsid)
      (slots_nvmeNamespace_of_row? hrow) hslots hother
  | @scsiLun l c row targets added hreference hparent hrow htargets hfree hnonneg htarget
      hsubsystems hvhosts =>
    cases hk
    have hsubsystem := hsame (j := .subsystem) (by decide)
    have hcontroller := hsame (j := .scsiController) (by decide)
    have htargets := (targets?_of_find? hparent hrow).trans htargets
    obtain ⟨hslots, hother⟩ := slots_of_targets (row?_of_subsystems hsubsystem hsubsystems)
      (targets?_rewrite h hcontroller hparent hvhosts)
    refine ⟨_, rfl, decide_eq_true hnonneg, hreference, by rw [hparent]; rfl, ?_⟩
    exact fills_of_rows (fun a => a.scsiDevNum_beq _) hfree (congrArg Slot.target htarget)
      (slots_scsiLun_of_targets? htargets) hslots hother
  | subsystem => cases hk
  | virtioBlk => cases hk
  | scsiController => cases hk

/-- A nested record that is dropped clears its slot. -/
theorem clears_of_loss (h : w.Rooted) {k owner : Kind} (hk : k.parent? = some owner) {name : String}
    {record : k.Record} (hinventory : w'.inventory = w.inventory.drop k name)
    (hloss : Loss registry w.inventory name w.engine w'.engine k record) :
    ∃ slot, slotOf? registry k record = some slot ∧
      (w.inventory.find? owner ((k.family registry).reference record)).isSome ∧
      Clears w w' ((k.family registry).reference record) k slot := by
  have hsame {j : Kind} (hj : j ≠ k) : w'.inventory.table j = w.inventory.table j := by
    rw [hinventory, Inventory.table_drop_of_ne _ hj]
  cases hloss with
  | @controller c p listener row hparent hlistener hrow hused hsubsystems hvhosts =>
    cases hk
    have hsubsystem := hsame (j := .subsystem) (by decide)
    have hcontroller := hsame (j := .scsiController) (by decide)
    have hrow := (row?_of_find? hparent).trans hrow
    obtain ⟨hslots, hother⟩ := slots_of_listenAddresses hrow
      (row?_rewrite h hsubsystem hparent hsubsystems) (targets?_of_vhosts hcontroller hvhosts)
    refine ⟨_, slotOf?_of_listener hlistener, Option.isSome_iff_exists.2 ⟨p, hparent⟩, ?_⟩
    exact clears_of_rows (fun a => a.sameEndpoint_eq _) hused (slots_controller_of_row? hrow)
      hslots hother
  | @nvmeNamespace n p row hparent hrow hused hsubsystems hvhosts =>
    cases hk
    have hsubsystem := hsame (j := .subsystem) (by decide)
    have hcontroller := hsame (j := .scsiController) (by decide)
    have hrow := (row?_of_find? hparent).trans hrow
    obtain ⟨hslots, hother⟩ := slots_of_namespaces hrow
      (row?_rewrite h hsubsystem hparent hsubsystems) (targets?_of_vhosts hcontroller hvhosts)
    refine ⟨_, rfl, Option.isSome_iff_exists.2 ⟨p, hparent⟩, ?_⟩
    exact clears_of_rows (fun a => a.nsid_beq _) hused (slots_nvmeNamespace_of_row? hrow) hslots
      hother
  | @scsiLun l c row targets hparent hrow htargets hused hsubsystems hvhosts =>
    cases hk
    have hsubsystem := hsame (j := .subsystem) (by decide)
    have hcontroller := hsame (j := .scsiController) (by decide)
    have htargets := (targets?_of_find? hparent hrow).trans htargets
    obtain ⟨hslots, hother⟩ := slots_of_targets (row?_of_subsystems hsubsystem hsubsystems)
      (targets?_rewrite h hcontroller hparent hvhosts)
    refine ⟨_, rfl, Option.isSome_iff_exists.2 ⟨c, hparent⟩, ?_⟩
    exact clears_of_rows (fun a => a.scsiDevNum_beq _) hused (slots_scsiLun_of_targets? htargets)
      hslots hother
  | subsystem => cases hk
  | virtioBlk => cases hk
  | scsiController => cases hk

/-! ## Parents -/

/-- Only the row of one subsystem is another. -/
theorem empties_of_row? {parent : String} (hlisten : w'.slots parent .controller = [])
    (hnamespaces : w'.slots parent .nvmeNamespace = [])
    (hrows : ∀ name, name ≠ parent → w'.row? name = w.row? name)
    (htargets : ∀ name, w'.targets? name = w.targets? name) : Empties w w' parent .subsystem where
  emptied k hk := by
    cases k with
    | controller => exact hlisten
    | nvmeNamespace => exact hnamespaces
    | subsystem | virtioBlk | scsiController | scsiLun => cases hk
  other p j hne := by
    by_cases hp : p = parent
    · subst hp
      cases j with
      | controller | nvmeNamespace => exact absurd ⟨rfl, rfl⟩ hne
      | scsiLun =>
        simp only [slots]
        rw [htargets]
      | _ => rfl
    · exact slots_congr (hrows p hp) (htargets p) j

/-- Only the bus of one SCSI controller is another. -/
theorem empties_of_targets? {parent : String} (hluns : w'.slots parent .scsiLun = [])
    (hrows : ∀ name, w'.row? name = w.row? name)
    (htargets : ∀ name, name ≠ parent → w'.targets? name = w.targets? name) :
    Empties w w' parent .scsiController where
  emptied k hk := by
    cases k with
    | scsiLun => exact hluns
    | subsystem | controller | nvmeNamespace | virtioBlk | scsiController => cases hk
  other p j hne := by
    cases j with
    | controller | nvmeNamespace =>
      simp only [slots]
      rw [hrows]
    | scsiLun =>
      have hp : p ≠ parent := fun hp => hne ⟨hp, rfl⟩
      simp only [slots]
      rw [htargets p hp]
    | _ => rfl

/-- A new subsystem has no slots. -/
theorem empties_of_gain_subsystem (h : w.Rooted) {place : Place} {r : Subsystem}
    (hinventory : w'.inventory = w.inventory.keep .subsystem place.name r)
    (hgain : Gain registry w.inventory place w.engine w'.engine .subsystem r) :
    Empties w w' place.name .subsystem := by
  have hcontroller : w'.inventory.table .scsiController = w.inventory.table .scsiController := by
    rw [hinventory, Inventory.table_keep_of_ne _ (by decide)]
  cases hgain with
  | @subsystem _ row hfree _ _ _ hnoListener hnoNamespace hsubsystems hvhosts =>
    have hrows := row?_keep h hinventory hfree hsubsystems
    have hrow : w'.row? place.name = some row := by
      rw [hrows, if_pos rfl]
    apply empties_of_row?
    · rw [slots_controller_of_row? hrow, hnoListener]
      rfl
    · rw [slots_nvmeNamespace_of_row? hrow, hnoNamespace]
      rfl
    · exact fun name hname => (hrows name).trans (if_neg hname)
    · exact targets?_of_vhosts hcontroller hvhosts

/-- A new SCSI controller has no slots. -/
theorem empties_of_gain_scsiController (h : w.Rooted) {place : Place} {c : ScsiController}
    (hplace : place = Place.under .scsiController place.parent place.id) (hid : Whole '/' place.id)
    (hinventory : w'.inventory = w.inventory.keep .scsiController place.name c)
    (hgain : Gain registry w.inventory place w.engine w'.engine .scsiController c) :
    Empties w w' place.name .scsiController := by
  have hsubsystem : w'.inventory.table .subsystem = w.inventory.table .subsystem := by
    rw [hinventory, Inventory.table_keep_of_ne _ (by decide)]
  obtain ⟨-, hown⟩ := place_eq rfl hplace hid
  cases hgain with
  | scsiController hfree _ hbackend hsubsystems hvhosts =>
    rw [← hown] at hfree hvhosts
    have htargets := targets?_keep h hinventory hfree hvhosts
    apply empties_of_targets?
    · have hnone := htargets place.name
      rw [if_pos rfl, hbackend] at hnone
      rw [slots_scsiLun_of_targets? hnone]
      rfl
    · exact row?_of_subsystems hsubsystem hsubsystems
    · exact fun name hname => (htargets name).trans (if_neg hname)

/-- A subsystem that goes takes its slots with it. -/
theorem empties_of_loss_subsystem (h : w.Rooted) {name : String} {r : Subsystem}
    (hkept : w.inventory.find? .subsystem name = some r)
    (hinventory : w'.inventory = w.inventory.drop .subsystem name)
    (hloss : Loss registry w.inventory name w.engine w'.engine .subsystem r) :
    Empties w w' name .subsystem := by
  have hcontroller : w'.inventory.table .scsiController = w.inventory.table .scsiController := by
    rw [hinventory, Inventory.table_drop_of_ne _ (by decide)]
  have hgone : w'.inventory.find? .subsystem name = none := by
    rw [hinventory, Inventory.find?_drop_self]
  cases hloss with
  | subsystem hsubsystems hvhosts =>
    have hrows := row?_drop h hkept hinventory hsubsystems
    apply empties_of_row?
    · exact slots_eq_nil (rfl : Kind.controller.parent? = some .subsystem) hgone
    · exact slots_eq_nil (rfl : Kind.nvmeNamespace.parent? = some .subsystem) hgone
    · exact fun other hother => (hrows other).trans (if_neg hother)
    · exact targets?_of_vhosts hcontroller hvhosts

/-- A SCSI controller that goes takes its slots with it. -/
theorem empties_of_loss_scsiController (h : w.Rooted) {name : String} {c : ScsiController}
    (hkept : w.inventory.find? .scsiController name = some c)
    (hinventory : w'.inventory = w.inventory.drop .scsiController name)
    (hloss : Loss registry w.inventory name w.engine w'.engine .scsiController c) :
    Empties w w' name .scsiController := by
  have hsubsystem : w'.inventory.table .subsystem = w.inventory.table .subsystem := by
    rw [hinventory, Inventory.table_drop_of_ne _ (by decide)]
  have hgone : w'.inventory.find? .scsiController name = none := by
    rw [hinventory, Inventory.find?_drop_self]
  cases hloss with
  | scsiController hsubsystems hvhosts =>
    have htargets := targets?_drop h hkept hinventory hvhosts
    apply empties_of_targets?
    · exact slots_eq_nil (rfl : Kind.scsiLun.parent? = some .scsiController) hgone
    · exact row?_of_subsystems hsubsystem hsubsystems
    · exact fun other hother => (htargets other).trans (if_neg hother)

/-- A virtio-blk device is nobody's parent. -/
theorem empties_virtioBlk {name : String} (hslots : ∀ p k, w'.slots p k = w.slots p k) :
    Empties w w' name .virtioBlk where
  emptied k hk := by cases k <;> cases hk
  other p k _ := hslots p k

/-- A virtio-blk device that is made leaves the slots alone. -/
theorem slots_of_gain_virtioBlk (h : w.Rooted) {place : Place} {d : VirtioBlk}
    (hinventory : w'.inventory = w.inventory.keep .virtioBlk place.name d)
    (hgain : Gain registry w.inventory place w.engine w'.engine .virtioBlk d) (p : String)
    (k : Kind) : w'.slots p k = w.slots p k := by
  have hsame {j : Kind} (hj : j ≠ .virtioBlk) : w'.inventory.table j = w.inventory.table j := by
    rw [hinventory, Inventory.table_keep_of_ne _ hj]
  have hsubsystem := hsame (j := .subsystem) (by decide)
  have hcontroller := hsame (j := .scsiController) (by decide)
  cases hgain with
  | virtioBlk hfree _ hbackend hsubsystems hvhosts =>
    apply slots_congr (row?_of_subsystems hsubsystem hsubsystems p)
    apply targets?_eq (congrArg (Table.find? · p) hcontroller)
    intro c hc
    rw [hvhosts, Table.find?_insert_of_ne]
    -- The id of the device was free, and that of a SCSI controller is not.
    intro hid
    obtain ⟨row, hrow, -⟩ := h.vhosts.controllersBacked.backed hc
    rw [hid, hfree] at hrow
    cases hrow

/-- A virtio-blk device that is dropped leaves the slots alone. -/
theorem slots_of_loss_virtioBlk (h : w.Rooted) {name : String} {d : VirtioBlk}
    (hkept : w.inventory.find? .virtioBlk name = some d)
    (hinventory : w'.inventory = w.inventory.drop .virtioBlk name)
    (hloss : Loss registry w.inventory name w.engine w'.engine .virtioBlk d) (p : String)
    (k : Kind) : w'.slots p k = w.slots p k := by
  have hsame {j : Kind} (hj : j ≠ .virtioBlk) : w'.inventory.table j = w.inventory.table j := by
    rw [hinventory, Inventory.table_drop_of_ne _ hj]
  have hsubsystem := hsame (j := .subsystem) (by decide)
  have hcontroller := hsame (j := .scsiController) (by decide)
  cases hloss with
  | virtioBlk hsubsystems hvhosts =>
    apply slots_congr (row?_of_subsystems hsubsystem hsubsystems p)
    apply targets?_eq (congrArg (Table.find? · p) hcontroller)
    intro c hc
    rw [hvhosts, Table.find?_erase_of_ne]
    -- No SCSI controller has the id of a device.
    intro hid
    exact Set.disjoint_left.1 h.vhosts.disjoint ⟨name, d, hkept, rfl⟩ ⟨p, c, hc, hid⟩

/-- A record without parent has no slots when it is made. -/
theorem empties_of_gain (h : w.Rooted) {k : Kind} (hk : k.parent? = none) {place : Place}
    {record : k.Record} (hplace : place = Place.under k place.parent place.id)
    (hid : Whole '/' place.id) (hinventory : w'.inventory = w.inventory.keep k place.name record)
    (hgain : Gain registry w.inventory place w.engine w'.engine k record) :
    Empties w w' place.name k := by
  cases k with
  | subsystem => exact empties_of_gain_subsystem h hinventory hgain
  | virtioBlk => exact empties_virtioBlk (slots_of_gain_virtioBlk h hinventory hgain)
  | scsiController => exact empties_of_gain_scsiController h hplace hid hinventory hgain
  | controller | nvmeNamespace | scsiLun => cases hk

/-- A record without parent takes its slots with it when it is dropped. -/
theorem empties_of_loss (h : w.Rooted) {k : Kind} (hk : k.parent? = none) {name : String}
    {record : k.Record} (hkept : w.inventory.find? k name = some record)
    (hinventory : w'.inventory = w.inventory.drop k name)
    (hloss : Loss registry w.inventory name w.engine w'.engine k record) :
    Empties w w' name k := by
  cases k with
  | subsystem => exact empties_of_loss_subsystem h hkept hinventory hloss
  | virtioBlk => exact empties_virtioBlk (slots_of_loss_virtioBlk h hkept hinventory hloss)
  | scsiController => exact empties_of_loss_scsiController h hkept hinventory hloss
  | controller | nvmeNamespace | scsiLun => cases hk

/-! ## What leaves the slots alone -/

section

variable {k : Kind} {name : String} {kept revised : k.Record} {request : UpdateRequest k.Record}

/-- Revising a record leaves the records under the other names alone. -/
theorem find?_of_revise (hinventory : w'.inventory = w.inventory.keep k name revised) {i : Kind}
    {p : String} (hne : ¬ (i = k ∧ p = name)) :
    w'.inventory.find? i p = w.inventory.find? i p := by
  rw [hinventory]
  by_cases hi : i = k
  · subst hi
    exact Inventory.find?_keep_of_ne _ (fun hp => hne ⟨rfl, hp⟩) _
  · exact congrArg (Table.find? · p) (Inventory.table_keep_of_ne _ hi _ _)

/-- A revised subsystem has the row of the one before. -/
theorem row?_of_revise (hkept : w.inventory.find? k name = some kept)
    (hrevise : Inventory.revise kept request = .ok revised)
    (hinventory : w'.inventory = w.inventory.keep k name revised)
    (hobjects : SameObjects w.engine w'.engine) (p : String) : w'.row? p = w.row? p := by
  by_cases hk : .subsystem = k ∧ p = name
  · obtain ⟨rfl, rfl⟩ := hk
    have hfind : w'.inventory.find? .subsystem p = some revised := by
      rw [hinventory, Inventory.find?_keep_self]
    have hnqn : revised.spec.nqn = kept.spec.nqn :=
      (Inventory.sameIdentity_of_revise hrevise).nqn
    rw [row?_of_find? hfind, row?_of_find? hkept, hobjects.1, hnqn]
  · exact row?_eq (find?_of_revise hinventory hk) fun _ _ => by rw [hobjects.1]

/-- A revised SCSI controller has the targets of the one before. -/
theorem targets?_of_revise (hkept : w.inventory.find? k name = some kept)
    (hinventory : w'.inventory = w.inventory.keep k name revised)
    (hobjects : SameObjects w.engine w'.engine) (p : String) : w'.targets? p = w.targets? p := by
  by_cases hk : .scsiController = k ∧ p = name
  · obtain ⟨rfl, rfl⟩ := hk
    have hfind : w'.inventory.find? .scsiController p = some revised := by
      rw [hinventory, Inventory.find?_keep_self]
    rw [targets?, targets?, hfind, hkept, hobjects.2]
    rfl
  · exact targets?_eq (find?_of_revise hinventory hk) fun _ _ => by rw [hobjects.2]

/-- A revised record has the object of the one before. -/
theorem slots_of_revise (hkept : w.inventory.find? k name = some kept)
    (hrevise : Inventory.revise kept request = .ok revised)
    (hinventory : w'.inventory = w.inventory.keep k name revised)
    (hobjects : SameObjects w.engine w'.engine) (p : String) (j : Kind) :
    w'.slots p j = w.slots p j :=
  slots_congr (row?_of_revise hkept hrevise hinventory hobjects p)
    (targets?_of_revise hkept hinventory hobjects p) j

end

/-- A slot that stays behind is not usable. -/
theorem slots_of_litter (hinventory : w'.inventory = w.inventory)
    (hlitter : Litter w.engine w'.engine) (p : String) (k : Kind) :
    (w'.slots p k).filter Slot.usable = (w.slots p k).filter Slot.usable := by
  cases hlitter with
  | @nvmeNamespace nqn row attached hrow hfree hnonpos hsubsystems hvhosts =>
    have hcontroller : w'.inventory.scsiControllers = w.inventory.scsiControllers := by
      rw [hinventory]
    have htargets := targets?_of_vhosts hcontroller hvhosts p
    -- The number stays behind under the parent in question, or under none of its rows.
    by_cases hnqn : ∃ r, w.inventory.find? .subsystem p = some r ∧ r.spec.nqn = nqn
    · obtain ⟨r, hr, rfl⟩ := hnqn
      have hrow := (row?_of_find? hr).trans hrow
      have hrow' : w'.row? p = some { row with namespaces := row.namespaces ++ [attached] } := by
        rw [row?_of_find? (by rw [hinventory, hr]), hsubsystems, Table.find?_insert_self]
      cases k with
      | controller => rw [slots_controller_of_row? hrow', slots_controller_of_row? hrow]
      | nvmeNamespace =>
        rw [slots_nvmeNamespace_of_row? hrow', slots_nvmeNamespace_of_row? hrow, List.map_append,
          List.filter_append]
        simp [Slot.usable, NamespaceRow.slot, hnonpos]
      | scsiLun =>
        simp only [slots]
        rw [htargets]
      | _ => rfl
    · have hsame : w'.row? p = w.row? p := by
        apply row?_eq (by rw [hinventory])
        intro r hr
        rw [hsubsystems, Table.find?_insert_of_ne _ fun heq => hnqn ⟨r, hr, heq⟩]
      rw [slots_congr hsame htargets]
  | @scsiLun id row targets added hrow htargets hfree hneg hsubsystems hvhosts =>
    have hsubsystem : w'.inventory.subsystems = w.inventory.subsystems := by
      rw [hinventory]
    have hsame := row?_of_subsystems hsubsystem hsubsystems p
    by_cases hid : ∃ c, w.inventory.find? .scsiController p = some c ∧ Name.ownId p = id
    · obtain ⟨c, hc, rfl⟩ := hid
      have htargets := (targets?_of_find? hc hrow).trans htargets
      have htargets' : w'.targets? p = some (targets ++ [added]) := by
        rw [targets?_of_find? (by rw [hinventory, hc]) (by rw [hvhosts, Table.find?_insert_self])]
      cases k with
      | controller | nvmeNamespace =>
        simp only [slots]
        rw [hsame]
      | scsiLun =>
        rw [slots_scsiLun_of_targets? htargets', slots_scsiLun_of_targets? htargets,
          List.map_append, List.filter_append]
        simp [Slot.usable, TargetRow.slot, hneg]
      | _ => rfl
    · have hsame' : w'.targets? p = w.targets? p := by
        apply targets?_eq (by rw [hinventory])
        intro c hc
        rw [hvhosts, Table.find?_insert_of_ne _ fun heq => hid ⟨c, hc, heq⟩]
      rw [slots_congr hsame hsame']

end World

end StorageControl
