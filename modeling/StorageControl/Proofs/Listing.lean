/-
# Names in a listing

A listing has an item for each row of the engine. A row that belongs to a record that is kept goes
under the name of the record, and every other row under a name that is made of its key: a number, a
qualified name, or the id of a vhost controller. These names lie in the same collection as the ones
that callers choose. So rows with different keys are listed under different names as long as no
caller has chosen, for the record of another row, the very name that a row without record gets.
-/
import StorageControl.Proofs.Contents
import StorageControl.Proofs.Digits
import StorageControl.Proofs.Paging
import StorageControl.Proofs.Placement

namespace StorageControl

open Engine (Answer Call Script Simulation)

/-! ## Rows -/

/-- What a listing has an item for: a row of the engine, or a controller that is kept. -/
abbrev Kind.Row : Kind → Type
  | .subsystem => Engine.SubsystemRow
  | .controller => Controller
  | .nvmeNamespace => Engine.NamespaceRow
  | .virtioBlk => Engine.VhostRow
  | .scsiController => Engine.VhostRow
  | .scsiLun => Engine.TargetRow

namespace Kind

/-- What the engine tells a row from others by. -/
def rowKey : (k : Kind) → k.Row → String
  | .subsystem, row => row.nqn
  | .controller, c => c.name
  | .nvmeNamespace, row => toString row.nsid.toInt
  | .virtioBlk, row => row.ctrlr
  | .scsiController, row => row.ctrlr
  | .scsiLun, row => toString row.scsiDevNum.toInt

/-- The key of the row that a record is about. -/
def recordKey : (k : Kind) → k.Record → String
  | .subsystem, s => s.spec.nqn
  | .controller, c => c.name
  | .nvmeNamespace, n => toString n.spec.hostNsid.toInt
  | .virtioBlk, d => Name.ownId d.name
  | .scsiController, c => Name.ownId c.name
  | .scsiLun, l => toString l.targetNum.toInt

/-- The name that a row gets if no record is kept for it. -/
def rowName : (k : Kind) → (parent : String) → k.Row → String
  | .subsystem, _, row => Name.compose .subsystem "" row.nqn
  | .controller, _, c => c.name
  | .nvmeNamespace, parent, row =>
    Name.compose .nvmeNamespace (Place.parentId .nvmeNamespace parent) (toString row.nsid.toInt)
  | .virtioBlk, _, row => Name.compose .virtioBlk "" row.ctrlr
  | .scsiController, _, row => Name.compose .scsiController "" row.ctrlr
  | .scsiLun, parent, row =>
    Name.compose .scsiLun (Name.ownId parent) (toString row.scsiDevNum.toInt)

/-- The kinds whose rows are told apart by numbers. -/
def numbered : List Kind := [.nvmeNamespace, .scsiLun]

end Kind

namespace Inventory

variable (registry : Attach.Registry) (inv : Inventory)

/-- The rows that a listing has items for. -/
def rows : (k : Kind) → (parent : String) → Script (List k.Row)
  | .subsystem, _ => do
    let rows ← Engine.subsystems
    return rows.filter fun row => !row.isDiscovery
  | .controller, parent => Controllers.items registry inv parent
  | .nvmeNamespace, parent => do
    let s ← inv.demand .subsystem parent
    let rows ← Engine.subsystems
    let row ← Script.demand (.unlisted (.namespacesOf s.spec.nqn)) (Engine.rowOf? s.spec.nqn rows)
    return row.namespaces
  | .virtioBlk, _ => do
    let rows ← Engine.vhostControllers none
    return rows.filter fun row => row.backend.block.isSome
  | .scsiController, _ => do
    let rows ← Engine.vhostControllers none
    return rows.filter fun row => row.backend.scsi.isSome
  | .scsiLun, parent => do
    let _ ← inv.demand .scsiController parent
    let listed ← Engine.scsiTargets (Name.ownId parent)
    Script.demand (.unlisted (.scsiLunsOf parent)) listed

/-- The item for a row. -/
def item : (k : Kind) → (parent : String) → k.Row → k.Record
  | .subsystem, _, row => Subsystems.ofRow inv row
  | .controller, _, c => c
  | .nvmeNamespace, parent, row =>
    Namespaces.ofRow (inv.namespaces.values.filter (·.spec.subsystemNameRef == parent)) parent row
  | .virtioBlk, _, row =>
    let name := Name.compose .virtioBlk "" row.ctrlr
    { (inv.virtioBlks.find? name).getD {} with
      name
      volumeNameRef := (row.backend.block.map (·.bdev)).getD "" }
  | .scsiController, _, row =>
    let name := Name.compose .scsiController "" row.ctrlr
    { (inv.scsiControllers.find? name).getD {} with name }
  | .scsiLun, parent, row =>
    ScsiLuns.ofRow (inv.scsiLuns.values.filter (·.controllerNameRef == parent)) parent row

/-- The record that is kept for a row. -/
def known? : (k : Kind) → (parent : String) → k.Row → Option k.Record
  | .subsystem, _, row => inv.subsystems.values.find? (·.spec.nqn == row.nqn)
  | .controller, _, c => inv.controllers.find? c.name
  | .nvmeNamespace, parent, row =>
    (inv.namespaces.values.filter (·.spec.subsystemNameRef == parent)).find?
      (·.spec.hostNsid == row.nsid)
  | .virtioBlk, _, row => inv.virtioBlks.find? (Name.compose .virtioBlk "" row.ctrlr)
  | .scsiController, _, row =>
    inv.scsiControllers.find? (Name.compose .scsiController "" row.ctrlr)
  | .scsiLun, parent, row =>
    (inv.scsiLuns.values.filter (·.controllerNameRef == parent)).find?
      (·.targetNum == row.scsiDevNum)

end Inventory

/-! ## The items of a listing -/

/-- What comes of a script is the same when it is taken for a procedure. -/
theorem Procedure.result_ofScript {α σ : Type} (engine : σ → Call → Answer × σ)
    (x : Script α) (s : σ) :
    ((Procedure.ofScript x).run engine s).result = (x.run engine s).1 := by
  induction x generalizing s with
  | done a => rfl
  | failed e => rfl
  | call request resume ih => exact ih _ _

/-- Scripts in a row are procedures in a row. -/
theorem Procedure.ofScript_bind {α β : Type} (x : Script α) (f : α → Script β) :
    ofScript (x.bind f) = (ofScript x).bind fun a => ofScript (f a) := by
  induction x with
  | done a => rfl
  | failed e => rfl
  | call request resume ih => exact congrArg _ (funext ih)

namespace Inventory

variable {registry : Attach.Registry} {inv : Inventory} {k : Kind} {parent : String}

theorem filterMap_virtioBlk (parent : String) (l : List Engine.VhostRow) :
    l.filterMap (VirtioBlks.ofRow inv) =
      (l.filter fun row => row.backend.block.isSome).map (inv.item .virtioBlk parent) := by
  rw [← List.filterMap_eq_map, List.filterMap_filter]
  refine List.filterMap_congr fun row _ => ?_
  cases hblock : row.backend.block with
  | none => simp [VirtioBlks.ofRow, hblock]
  | some block => simp [VirtioBlks.ofRow, item, hblock]

theorem filterMap_scsiController (parent : String) (l : List Engine.VhostRow) :
    l.filterMap (ScsiControllers.ofRow inv) =
      (l.filter fun row => row.backend.scsi.isSome).map (inv.item .scsiController parent) := by
  rw [← List.filterMap_eq_map, List.filterMap_filter]
  refine List.filterMap_congr fun row _ => ?_
  cases hscsi : row.backend.scsi with
  | none => simp [ScsiControllers.ofRow, hscsi]
  | some targets => simp [ScsiControllers.ofRow, item, hscsi]

/-- A listing has one item for each row. -/
theorem items_eq_map_rows (registry : Attach.Registry) (inv : Inventory) (k : Kind)
    (parent : String) :
    (k.family registry).items inv parent =
      (inv.rows registry k parent).bind fun rows => .done (rows.map (inv.item k parent)) := by
  cases k with
  | subsystem =>
    simp only [rows, Script.bind_eq, Script.bind_assoc]
    rfl
  | controller =>
    have hitem : inv.item .controller parent = id := rfl
    simp only [hitem, List.map_id]
    exact (Script.bind_done _).symm
  | nvmeNamespace =>
    simp only [rows, Script.bind_eq, Script.bind_assoc]
    rfl
  | virtioBlk =>
    show VirtioBlks.items inv = _
    simp only [VirtioBlks.items, filterMap_virtioBlk parent, rows, Script.bind_eq,
      Script.bind_assoc, Script.pure_eq, Script.done_bind]
  | scsiController =>
    show ScsiControllers.items inv = _
    simp only [ScsiControllers.items, filterMap_scsiController parent, rows,
      Script.bind_eq, Script.bind_assoc, Script.pure_eq, Script.done_bind]
  | scsiLun =>
    simp only [rows, Script.bind_eq, Script.bind_assoc]
    rfl

/-- An unpaged listing has the items for its rows, in some order, and there is no token. -/
theorem exists_items_of_rows {σ : Type} {engine : σ → Call → Answer × σ} {s : σ} {owner : String}
    {rows : List k.Row} (fresh : String) (hparent : Place.parentOf k parent "" = .ok owner)
    (hrows : ((Procedure.ofScript (inv.rows registry k owner)).run engine s).result = .ok rows) :
    ∃ items, ((inv.perform registry fresh (.list { parent } : Operation k)).run engine s).result =
        .ok (.page ⟨items, ""⟩) ∧ items.Perm (rows.map (inv.item k owner)) := by
  have hlisted : ((Procedure.ofScript (inv.listed registry k parent)).run engine s).result =
      .ok (rows.map (inv.item k owner)) := by
    rw [listed, hparent]
    show ((Procedure.ofScript ((k.family registry).items inv owner)).run engine s).result = _
    rw [items_eq_map_rows, Procedure.ofScript_bind, Procedure.result_bind, hrows]
    rfl
  have hw : inv.cursors.window 0 "" = .ok ⟨0, 0⟩ := rfl
  refine ⟨byName (rows.map (inv.item k owner)), ?_, List.mergeSort_perm _ _⟩
  have hlist := (run_list fresh { parent } hw hlisted).1
  rw [Cursors.paginate, Window.slice_whole] at hlist
  show ((Procedure.bind _ _).run engine s).result = _
  rw [Procedure.result_bind, hlist]
  rfl

end Inventory

/-! ## Names of rows -/

/-- A number in decimal digits is whole. -/
theorem Text.whole_toString (n : Int) : Whole '/' (toString n) := by
  have hdigits (m : Nat) : Whole '/' m.repr := by
    rw [Whole, Nat.toList_repr]
    intro hmem
    exact absurd (Nat.isDigit_of_mem_toDigits (by decide) (by decide) hmem) (by decide)
  rw [Int.toString_eq_repr, Int.repr_eq_if]
  split
  · exact hdigits _
  · have hminus : Whole '/' "-" := by simp [Whole]
    rw [Whole, String.toList_append, List.mem_append, not_or]
    exact ⟨hminus, hdigits _⟩

/-- Rows that get the same name have the same key. -/
theorem Kind.rowKey_eq_of_rowName {k : Kind} {parent : String} {row other : k.Row}
    (h : k.rowName parent row = k.rowName parent other) : k.rowKey row = k.rowKey other := by
  cases k with
  | controller => exact h
  | _ =>
    simp only [rowName, Name.compose_inj] at h
    exact h

namespace Inventory

variable {inv : Inventory} {k : Kind} {parent : String}

/-- A row goes under the name of its record, or under the name that it gets without one. -/
theorem name_item (hinv : inv.All Placed) (row : k.Row) :
    Resource.name (inv.item k parent row) =
      ((inv.known? k parent row).map Resource.name).getD (k.rowName parent row) := by
  cases k with
  | subsystem =>
    simp only [item, known?, Subsystems.ofRow]
    cases inv.subsystems.values.find? (·.spec.nqn == row.nqn) <;> rfl
  | nvmeNamespace =>
    simp only [item, known?, Namespaces.ofRow]
    cases (inv.namespaces.values.filter (·.spec.subsystemNameRef == parent)).find?
      (·.spec.hostNsid == row.nsid) <;> rfl
  | scsiLun =>
    simp only [item, known?, ScsiLuns.ofRow]
    cases (inv.scsiLuns.values.filter (·.controllerNameRef == parent)).find?
      (·.targetNum == row.scsiDevNum) <;> rfl
  | controller | virtioBlk | scsiController =>
    -- The name is the one that the record is looked up by.
    cases hknown : inv.known? _ parent row with
    | none => rfl
    | some kept => exact (hinv _ _ kept hknown).key.symm

/-- The own id of a record without parent is the id that its name is composed of. -/
theorem ownId_of_placed {id : String} {record : k.Record} (hk : k.parent? = none)
    (h : Placed k (Name.compose k "" id) record) : Name.ownId (Resource.name record) = id := by
  obtain ⟨i, hname, hi⟩ := h.eq_compose_of_root hk
  rw [h.key, hname, Name.ownId_compose k (by simp [Text.Whole]) (Check.whole_of_isId hi)]
  exact (Name.compose_inj.1 hname).symm

/-- The record of a row is kept under its name and has the key of the row. -/
theorem find?_of_known? (hinv : inv.All Placed) {row : k.Row} {kept : k.Record}
    (h : inv.known? k parent row = some kept) :
    inv.find? k (Resource.name kept) = some kept ∧ k.recordKey kept = k.rowKey row := by
  have hfind {name : String} (h : inv.find? k name = some kept) :
      inv.find? k (Resource.name kept) = some kept := by
    rwa [(hinv k name kept h).key]
  cases k with
  | subsystem =>
    simp only [known?] at h
    obtain ⟨name, hname⟩ := Table.exists_find?_of_mem_values (List.mem_of_find?_eq_some h)
    have hnqn : kept.spec.nqn = row.nqn := by simpa using List.find?_some h
    exact ⟨hfind hname, hnqn⟩
  | nvmeNamespace =>
    simp only [known?] at h
    obtain ⟨name, hname⟩ := Table.exists_find?_of_mem_values
      (List.mem_filter.1 (List.mem_of_find?_eq_some h)).1
    have hnsid : kept.spec.hostNsid = row.nsid := by simpa using List.find?_some h
    refine ⟨hfind hname, ?_⟩
    rw [Kind.recordKey, Kind.rowKey, hnsid]
  | scsiLun =>
    simp only [known?] at h
    obtain ⟨name, hname⟩ := Table.exists_find?_of_mem_values
      (List.mem_filter.1 (List.mem_of_find?_eq_some h)).1
    have htarget : kept.targetNum = row.scsiDevNum := by simpa using List.find?_some h
    refine ⟨hfind hname, ?_⟩
    rw [Kind.recordKey, Kind.rowKey, htarget]
  | controller => exact ⟨hfind h, (hinv .controller _ kept h).key⟩
  | virtioBlk | scsiController =>
    have hid := ownId_of_placed rfl (hinv _ _ kept h)
    exact ⟨hfind h, hid⟩

/-- A record of a numbered row refers to the parent that the row is listed under. -/
theorem reference?_of_known? (hk : k ∈ Kind.numbered) {row : k.Row} {kept : k.Record}
    (h : inv.known? k parent row = some kept) : k.reference? kept = some parent := by
  cases k with
  | nvmeNamespace | scsiLun =>
    have hparent := (List.mem_filter.1 (List.mem_of_find?_eq_some h)).2
    exact congrArg some (eq_of_beq hparent)
  | subsystem | controller | virtioBlk | scsiController => exact absurd hk (by decide)

/-- A numbered row has a record if one that is kept under the parent has the key of the row. -/
theorem known?_isSome_of_reference? (hk : k ∈ Kind.numbered) {name : String} {row : k.Row}
    {kept : k.Record} (hkept : inv.find? k name = some kept)
    (hparent : k.reference? kept = some parent) (hkey : k.recordKey kept = k.rowKey row) :
    (inv.known? k parent row).isSome := by
  have hmem := Table.mem_values_of_find? hkept
  cases k with
  | nvmeNamespace =>
    have hreference : kept.spec.subsystemNameRef = parent := Option.some.inj hparent
    have hnsid : kept.spec.hostNsid = row.nsid :=
      Int32.toInt_inj.1 (Decimal.eq_of_toString_eq hkey)
    exact List.find?_isSome.2
      ⟨kept, List.mem_filter.2 ⟨hmem, by simp [hreference]⟩, by simp [hnsid]⟩
  | scsiLun =>
    have hreference : kept.controllerNameRef = parent := Option.some.inj hparent
    have htarget : kept.targetNum = row.scsiDevNum :=
      Int32.toInt_inj.1 (Decimal.eq_of_toString_eq hkey)
    exact List.find?_isSome.2
      ⟨kept, List.mem_filter.2 ⟨hmem, by simp [hreference]⟩, by simp [htarget]⟩
  | subsystem | controller | virtioBlk | scsiController => exact absurd hk (by decide)

/-- A parent that is named in a request is composed of the id in it. -/
theorem eq_compose_of_parentOf {owner : Kind} (hk : k.parent? = some owner) {explicit : String}
    (h : Place.parentOf k explicit "" = .ok parent) :
    ∃ i, parent = Name.compose owner "" i ∧ Text.Whole '/' i ∧ i ≠ "" := by
  unfold Place.parentOf at h
  split at h
  · simp_all
  · rename_i owner' howner
    obtain rfl : owner = owner' := Option.some.inj (hk.symm.trans howner)
    obtain ⟨_, -, h⟩ := Check.bind_eq_ok_iff.1 h
    obtain ⟨_, hname, h⟩ := Check.bind_eq_ok_iff.1 h
    cases h
    obtain ⟨p, i, hcompose, -, hi, hne, -⟩ :=
      Name.eq_compose_of_kind? (Check.kind?_of_nameOf hname)
    exact ⟨i, hcompose.trans (Name.compose_of_root (Kind.parent?_of_parent? hk) p "" i), hi, hne⟩

/-- A record that is kept under a name composed of a parent's id refers to that parent. -/
theorem reference?_of_compose {owner : Kind} (hk : k.parent? = some owner) {id key : String}
    {record : k.Record} (h : Placed k (Name.compose k id key) record) (hid : Text.Whole '/' id)
    (hne : id ≠ "") (hkey : Text.Whole '/' key) :
    k.reference? record = some (Name.compose owner "" id) := by
  rw [h.parent, Name.parent?_compose hk hid hkey hne]

/-- A record that is kept under the name that a row gets without one is kept for the row, if it has
the key of the row. -/
theorem known?_isSome_of_recordKey (hinv : inv.All Placed) {explicit : String}
    (hparent : Place.parentOf k explicit "" = .ok parent) {row : k.Row} {kept : k.Record}
    (hkept : inv.find? k (k.rowName parent row) = some kept)
    (hkey : k.recordKey kept = k.rowKey row) : (inv.known? k parent row).isSome := by
  have hplaced := hinv k _ kept hkept
  have hmem := Table.mem_values_of_find? hkept
  cases k with
  | subsystem =>
    have hnqn : kept.spec.nqn = row.nqn := hkey
    exact List.find?_isSome.2 ⟨kept, hmem, by simp [hnqn]⟩
  | nvmeNamespace =>
    obtain ⟨i, rfl, hi, hne⟩ := eq_compose_of_parentOf rfl hparent
    have hid : Place.parentId .nvmeNamespace (Name.compose .subsystem "" i) = i :=
      Name.idIn_compose_parent (k := .nvmeNamespace) rfl hi
    rw [Kind.rowName, hid] at hplaced
    exact known?_isSome_of_reference? (by decide) hkept
      (reference?_of_compose rfl hplaced hi hne (Text.whole_toString _)) hkey
  | scsiLun =>
    obtain ⟨i, rfl, hi, hne⟩ := eq_compose_of_parentOf rfl hparent
    have hid : Name.ownId (Name.compose .scsiController "" i) = i :=
      Name.ownId_compose _ (by simp [Text.Whole]) hi
    rw [Kind.rowName, hid] at hplaced
    exact known?_isSome_of_reference? (by decide) hkept
      (reference?_of_compose rfl hplaced hi hne (Text.whole_toString _)) hkey
  | controller | virtioBlk | scsiController =>
    show (inv.find? _ (Kind.rowName _ parent row)).isSome
    rw [hkept]
    rfl

/-! ## Names of items -/

/-- A row without record gets the name of the record of another row. -/
def Clashes (inv : Inventory) (k : Kind) (parent : String) (rows : List k.Row) : Prop :=
  ∃ row ∈ rows, ∃ other ∈ rows, inv.known? k parent row = none ∧
    (inv.known? k parent other).map Resource.name = some (k.rowName parent row)

/-- A row without record gets the name of a record that is kept. -/
def Shadows (inv : Inventory) (k : Kind) (parent : String) (rows : List k.Row) : Prop :=
  ∃ row ∈ rows, inv.known? k parent row = none ∧
    (inv.find? k (k.rowName parent row)).isSome

/-- Records are got, updated and deleted by name. The record that is kept under the name of the item
for a row, if there is one, belongs to the row. -/
def Addresses (inv : Inventory) (k : Kind) (parent : String) (row : k.Row) : Prop :=
  ∀ kept, inv.find? k (Resource.name (inv.item k parent row)) = some kept →
    k.recordKey kept = k.rowKey row

/-- Two rows whose items have the same name have the same key, or one of them has no record and gets
the name of the record of the other. -/
theorem rowKey_eq_of_name_item (hinv : inv.All Placed) {rows : List k.Row} {row other : k.Row}
    (hrow : row ∈ rows) (hother : other ∈ rows)
    (h : Resource.name (inv.item k parent row) = Resource.name (inv.item k parent other)) :
    k.rowKey row = k.rowKey other ∨ inv.Clashes k parent rows := by
  rw [name_item hinv, name_item hinv] at h
  cases hknown : inv.known? k parent row with
  | none =>
    cases hknown' : inv.known? k parent other with
    | none =>
      rw [hknown, hknown'] at h
      exact .inl (Kind.rowKey_eq_of_rowName h)
    | some kept' =>
      rw [hknown, hknown'] at h
      exact .inr ⟨row, hrow, other, hother, hknown, by rw [hknown']; exact congrArg some h.symm⟩
  | some kept =>
    cases hknown' : inv.known? k parent other with
    | none =>
      rw [hknown, hknown'] at h
      exact .inr ⟨other, hother, row, hrow, hknown', by rw [hknown]; exact congrArg some h⟩
    | some kept' =>
      rw [hknown, hknown'] at h
      have hname : Resource.name kept = Resource.name kept' := h
      obtain ⟨hkept, hkey⟩ := find?_of_known? hinv hknown
      obtain ⟨hkept', hkey'⟩ := find?_of_known? hinv hknown'
      rw [hname, hkept'] at hkept
      rw [← hkey, ← hkey', Option.some.inj hkept]
      exact .inl rfl

/-- Rows with different keys are listed under different names exactly when none of them clashes. -/
theorem nodup_names_iff (hinv : inv.All Placed) {rows : List k.Row}
    (hkeys : (rows.map k.rowKey).Nodup) :
    (rows.map fun row => Resource.name (inv.item k parent row)).Nodup ↔
      ¬ inv.Clashes k parent rows := by
  rw [List.nodup_map_iff_inj_on hkeys.of_map]
  constructor
  · rintro hinj ⟨row, hrow, other, hother, hknown, hname⟩
    have hsame : Resource.name (inv.item k parent row) =
        Resource.name (inv.item k parent other) := by
      rw [name_item hinv, name_item hinv, hknown, hname]
      rfl
    rw [← hinj row hrow other hother hsame, hknown] at hname
    cases hname
  · intro hclash row hrow other hother hname
    rcases rowKey_eq_of_name_item hinv hrow hother hname with hkey | h
    · exact List.inj_on_of_nodup_map hkeys hrow hother hkey
    · exact absurd h hclash

/-- A row that has a record is addressed by the name of its item. -/
theorem addresses_of_known? (hinv : inv.All Placed) {row : k.Row} {kept : k.Record}
    (hknown : inv.known? k parent row = some kept) : inv.Addresses k parent row := by
  intro found hfound
  obtain ⟨hkept, hkey⟩ := find?_of_known? hinv hknown
  rw [name_item hinv, hknown] at hfound
  rw [← hkey, Option.some.inj (hfound.symm.trans hkept)]

/-- Every row is addressed by the name of its item exactly when none gets the name of a record that
is kept. -/
theorem forall_addresses_iff (hinv : inv.All Placed) {explicit : String}
    (hparent : Place.parentOf k explicit "" = .ok parent) {rows : List k.Row} :
    (∀ row ∈ rows, inv.Addresses k parent row) ↔ ¬ inv.Shadows k parent rows := by
  constructor
  · rintro haddresses ⟨row, hrow, hknown, hshadow⟩
    obtain ⟨kept, hkept⟩ := Option.isSome_iff_exists.1 hshadow
    have hkey : k.recordKey kept = k.rowKey row := by
      refine haddresses row hrow kept ?_
      rw [name_item hinv, hknown]
      exact hkept
    have hsome := known?_isSome_of_recordKey hinv hparent hkept hkey
    rw [hknown] at hsome
    cases hsome
  · intro hshadow row hrow
    cases hknown : inv.known? k parent row with
    | some kept => exact addresses_of_known? hinv hknown
    | none =>
      intro found hfound
      rw [name_item hinv, hknown] at hfound
      exact absurd ⟨row, hrow, hknown, Option.isSome_iff_exists.2 ⟨found, hfound⟩⟩ hshadow

/-- The name of the record of another row is the name of a record that is kept. -/
theorem Clashes.shadows (hinv : inv.All Placed) {rows : List k.Row}
    (h : inv.Clashes k parent rows) : inv.Shadows k parent rows := by
  obtain ⟨row, hrow, other, -, hknown, hname⟩ := h
  obtain ⟨kept, hkept, hsame⟩ := Option.map_eq_some_iff.1 hname
  refine ⟨row, hrow, hknown, ?_⟩
  rw [← hsame, (find?_of_known? hinv hkept).1]
  rfl

/-- Where records are looked up by the names that rows get, a row without record gets a name under
which no record is kept. -/
theorem not_shadows_of_mem (hk : k ∈ [Kind.controller, .virtioBlk, .scsiController])
    (rows : List k.Row) : ¬ inv.Shadows k parent rows := by
  rintro ⟨row, -, hknown, hshadow⟩
  have hlookup : inv.find? k (k.rowName parent row) = none := by
    cases k with
    | controller | virtioBlk | scsiController => exact hknown
    | subsystem | nvmeNamespace | scsiLun => exact absurd hk (by decide)
  rw [hlookup] at hshadow
  cases hshadow

end Inventory

/-! ## Runs -/

/-- After every run that begins with nothing kept, whatever engine it is against, an unpaged listing
of rows with different keys succeeds. Its items have different names exactly when no row without
record gets the name of the record of another row, and each of these names addresses its own row
exactly when no row without record gets the name of any record that is kept. For controllers and
vhost controllers both are always so. -/
theorem run_names_rows_iff {σ τ : Type} (registry : Attach.Registry)
    (engine : σ → Call → Answer × σ) (steps : List Step) (s : σ)
    (engine' : τ → Call → Answer × τ) (s' : τ) (fresh : String) (k : Kind)
    (parent owner : String) (rows : List k.Row) (hparent : Place.parentOf k parent "" = .ok owner)
    (hrows : ((Procedure.ofScript ((Run.of registry engine steps .empty s).inventory.rows registry k
      owner)).run engine' s').result = .ok rows)
    (hkeys : (rows.map k.rowKey).Nodup) :
    let inv := (Run.of registry engine steps .empty s).inventory
    ∃ items, ((inv.perform registry fresh (.list { parent } : Operation k)).run engine' s').result =
        .ok (.page ⟨items, ""⟩) ∧
      items.Perm (rows.map (inv.item k owner)) ∧
      ((items.map Resource.name).Nodup ↔ ¬ inv.Clashes k owner rows) ∧
      ((∀ row ∈ rows, inv.Addresses k owner row) ↔ ¬ inv.Shadows k owner rows) ∧
      (k ∈ [Kind.controller, .virtioBlk, .scsiController] →
        (items.map Resource.name).Nodup ∧ ∀ row ∈ rows, inv.Addresses k owner row) := by
  intro inv
  have hinv : inv.All Placed := Run.placed steps s (Inventory.all_empty Placed)
  obtain ⟨items, hresult, hperm⟩ := Inventory.exists_items_of_rows fresh hparent hrows
  have hnames : (items.map Resource.name).Nodup ↔ ¬ inv.Clashes k owner rows := by
    rw [(hperm.map Resource.name).nodup_iff, List.map_map]
    exact Inventory.nodup_names_iff hinv hkeys
  have haddresses : (∀ row ∈ rows, inv.Addresses k owner row) ↔ ¬ inv.Shadows k owner rows :=
    Inventory.forall_addresses_iff hinv hparent
  refine ⟨items, hresult, hperm, hnames, haddresses, fun hk => ?_⟩
  have hshadow : ¬ inv.Shadows k owner rows := Inventory.not_shadows_of_mem hk rows
  exact ⟨hnames.2 fun hclash => hshadow (hclash.shadows hinv), haddresses.2 hshadow⟩

/-- A subsystem is made, and a namespace under it, which has the number one. -/
def numbering (id : String) : List Step :=
  [⟨.subsystem, .create "" { spec := { nqn := "nqn.2022-09.io.spdk:one" } } "s1", 0⟩,
   ⟨.nvmeNamespace, .create "//storage.bridge.dev/subsystems/s1"
     { spec := { volumeNameRef := "Malloc0" } } id, 0⟩]

/-- An engine whose subsystem has a second namespace, which was not made along a run. -/
def numbered (_ : Unit) (_ : Call) : Answer × Unit :=
  let row : Engine.SubsystemRow :=
    { nqn := "nqn.2022-09.io.spdk:one"
      namespaces := [{ nsid := 1, bdevName := "Malloc0" }, { nsid := 2, bdevName := "Malloc1" }] }
  (.ok (Engine.SubsystemRow.codec.list.encode [row]), ())

/-- With the id a, the namespace is listed under another name than the second one. -/
theorem names_rows_lettered :
    let inv := (Run.of {} Simulation.answer (numbering "a") .empty .start).inventory
    ∃ items, ((inv.perform {} "" (.list { parent := "//storage.bridge.dev/subsystems/s1" } :
        Operation .nvmeNamespace)).run numbered ()).result = .ok (.page ⟨items, ""⟩) ∧
      (items.map (·.name)).Nodup := by
  intro inv
  let rows : List Engine.NamespaceRow :=
    [{ nsid := 1, bdevName := "Malloc0" }, { nsid := 2, bdevName := "Malloc1" }]
  obtain ⟨items, hresult, -, hnames, -⟩ := run_names_rows_iff {} Simulation.answer (numbering "a")
    .start numbered () "" .nvmeNamespace "//storage.bridge.dev/subsystems/s1"
    "//storage.bridge.dev/subsystems/s1" rows (by decide +kernel) (by decide +kernel)
    (by decide +kernel)
  refine ⟨items, hresult, hnames.2 ?_⟩
  -- The name of the second row ends in 2, and the only record that is kept ends in a.
  rw [Inventory.Clashes]
  decide +kernel

/-- With the id 2, the namespace is listed under the name that the second one gets. -/
theorem not_nodup_names_numbered :
    let inv := (Run.of {} Simulation.answer (numbering "2") .empty .start).inventory
    ∃ rows items, ((Procedure.ofScript (inv.rows {} .nvmeNamespace
        "//storage.bridge.dev/subsystems/s1")).run numbered ()).result = .ok rows ∧
      (rows.map (Kind.rowKey .nvmeNamespace)).Nodup ∧
      ((inv.perform {} "" (.list { parent := "//storage.bridge.dev/subsystems/s1" } :
        Operation .nvmeNamespace)).run numbered ()).result = .ok (.page ⟨items, ""⟩) ∧
      ¬ (items.map (·.name)).Nodup := by
  intro inv
  let rows : List Engine.NamespaceRow :=
    [{ nsid := 1, bdevName := "Malloc0" }, { nsid := 2, bdevName := "Malloc1" }]
  have hrows : ((Procedure.ofScript (inv.rows {} .nvmeNamespace
      "//storage.bridge.dev/subsystems/s1")).run numbered ()).result = .ok rows := by
    decide +kernel
  have hparent : Place.parentOf .nvmeNamespace "//storage.bridge.dev/subsystems/s1" "" =
      .ok "//storage.bridge.dev/subsystems/s1" := by
    decide +kernel
  obtain ⟨items, hresult, hperm⟩ := Inventory.exists_items_of_rows "" hparent hrows
  refine ⟨rows, items, hrows, by decide +kernel, hresult, ?_⟩
  rw [(hperm.map fun n : NvmeNamespace => n.name).nodup_iff]
  decide +kernel

end StorageControl
