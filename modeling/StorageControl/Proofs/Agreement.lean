/-
# Looking a record up and listing it

A record can be brought up to date in two ways: by name, when the engine is asked for the row of the
record and the row is laid over it, and in a listing, when a record is found for every row of the
engine. In a world both ways come to the same record, and the record is the only item of the listing
with its name. A controller whose listener is not there cannot be looked up, but it is listed, and
the listing says that it is not active.
-/
import StorageControl.Proofs.Listener
import StorageControl.Proofs.Listing
import StorageControl.Proofs.Query

namespace StorageControl

open Engine (Answer Call Script Simulation SubsystemRow VhostRow)
open Engine.Simulation (Labelled)

/-! ## The item with a name -/

/-- If no two items have the same name, an item is the only one with its name. -/
theorem Resource.filter_name_eq {ρ : Type} [Resource ρ] {items : List ρ} {item : ρ}
    (hnodup : (items.map Resource.name).Nodup) (hitem : item ∈ items) :
    items.filter (fun other => Resource.name other = Resource.name item) = [item] := by
  induction items with
  | nil => cases hitem
  | cons first rest ih =>
    obtain ⟨hfirst, hrest⟩ := List.nodup_cons.1 hnodup
    rcases List.mem_cons.1 hitem with rfl | hitem
    · have hnone : rest.filter (fun other => Resource.name other = Resource.name item) = [] := by
        rw [List.filter_eq_nil_iff]
        intro other hother hname
        exact hfirst (of_decide_eq_true hname ▸ List.mem_map_of_mem hother)
      simp [hnone]
    · have hne : Resource.name first ≠ Resource.name item := fun hname =>
        hfirst (hname ▸ List.mem_map_of_mem hitem)
      simp [hne, ih hrest hitem]

namespace Inventory

variable {inv : Inventory} {k : Kind} {parent : String} {rows : List k.Row} {row : k.Row}
  {record : k.Record}

/-- If rows have different keys and none clashes, the item for the row of a record that is kept is
the only one with the name of the record. -/
theorem filter_items_eq (hinv : inv.All Placed) (hkeys : (rows.map k.rowKey).Nodup)
    (hclash : ¬ inv.Clashes k parent rows) (hrow : row ∈ rows)
    (hknown : inv.known? k parent row = some record) {items : List k.Record}
    (hperm : items.Perm (rows.map (inv.item k parent))) :
    items.filter (fun item => Resource.name item = Resource.name record) =
      [inv.item k parent row] := by
  have hname : Resource.name (inv.item k parent row) = Resource.name record := by
    rw [name_item hinv, hknown]
    rfl
  have hnodup : (items.map Resource.name).Nodup := by
    rw [(hperm.map Resource.name).nodup_iff, List.map_map]
    exact (nodup_names_iff hinv hkeys).2 hclash
  rw [← hname]
  exact Resource.filter_name_eq hnodup (hperm.mem_iff.2 (List.mem_map_of_mem hrow))

/-- Looking up a record that is kept comes to what bringing it up to date comes to. -/
theorem result_get {σ : Type} {registry : Attach.Registry} {engine : σ → Call → Answer × σ} {s : σ}
    {name : String} (fresh : String) (hkept : inv.find? k name = some record)
    (hplaced : Placed k name record) :
    ((inv.perform registry fresh (.get name : Operation k)).run engine s).result =
      (((k.family registry).refresh inv name record).run engine s).1.map Reply.record := by
  have hrequired : Check.required "name" name = .ok () := by
    obtain ⟨p, i, rfl, -⟩ := hplaced.composed
    exact Check.required_compose "name" k p i
  have hget : inv.get registry k name = (k.family registry).refresh inv name record := by
    simp [Inventory.get, Inventory.kept, Inventory.demand, hrequired, hkept, Script.check,
      Script.demand]
  show ((Procedure.bind _ _).run engine s).result = _
  rw [Procedure.result_bind, hget, Procedure.lift_eq, Procedure.result_ofScript]
  cases (((k.family registry).refresh inv name record).run engine s).1 <;> rfl

/-- A record that is looked up is the one that is kept, brought up to date. -/
theorem refresh_of_get {σ : Type} {registry : Attach.Registry} {engine : σ → Call → Answer × σ}
    {s : σ} {name : String} {fresh : String} {r : k.Record}
    (hkept : inv.find? k name = some record) (hplaced : Placed k name record)
    (hget : ((inv.perform registry fresh (.get name : Operation k)).run engine s).result =
      .ok (.record r)) :
    (((k.family registry).refresh inv name record).run engine s).1 = .ok r := by
  rw [result_get fresh hkept hplaced] at hget
  cases hrefresh : (((k.family registry).refresh inv name record).run engine s).1 with
  | error e =>
    rw [hrefresh] at hget
    cases hget
  | ok q =>
    rw [hrefresh] at hget
    cases hget
    rfl

end Inventory

/-! ## Results in a world -/

namespace World

variable {registry : Attach.Registry} {w : World} {k : Kind} {name parent : String}
  {record : k.Record} {bits : Nat}

theorem result_get (hkept : w.inventory.find? k name = some record)
    (hplaced : Placed k name record) :
    w.result registry ⟨k, .get name, bits⟩ =
      (((k.family registry).refresh w.inventory name record).run Simulation.answer
        w.engine).1.map Reply.record :=
  Inventory.result_get (Uuid.text bits) hkept hplaced

/-- An unpaged listing fails as listing its items fails. -/
theorem result_list_of_error {owner : String} {e : Fault}
    (hparent : Place.parentOf k parent "" = .ok owner)
    (hitems : (((k.family registry).items w.inventory owner).run Simulation.answer w.engine).1 =
      .error e) :
    w.result registry ⟨k, .list { parent }, bits⟩ = .error e := by
  have hw : w.inventory.cursors.window 0 "" = .ok ⟨0, 0⟩ := rfl
  have hlisted : ((Procedure.ofScript (w.inventory.listed registry k parent)).run Simulation.answer
      w.engine).result = .error e := by
    rw [Inventory.listed, hparent]
    show ((Procedure.ofScript ((k.family registry).items w.inventory owner)).run Simulation.answer
      w.engine).result = _
    rw [Procedure.result_ofScript, hitems]
  show ((Procedure.bind (w.inventory.list registry k (Uuid.text bits) { parent }) _).run
    Simulation.answer w.engine).result = _
  rw [Inventory.list_eq (Uuid.text bits) { parent } hw, Procedure.result_bind,
    Procedure.result_bind, hlisted]
  rfl

/-- The unpaged listing under a parent succeeds, and a record is its only item with a name. -/
def Lists (registry : Attach.Registry) (w : World) (k : Kind) (parent name : String) (bits : Nat)
    (r : k.Record) : Prop :=
  ∃ items, w.result registry ⟨k, .list { parent }, bits⟩ = .ok (.page ⟨items, ""⟩) ∧
    items.filter (fun item => Resource.name item = name) = [r]

/-- A listing has at most one such item. -/
theorem Lists.unique {r q : k.Record} (hr : w.Lists registry k parent name bits r)
    (hq : w.Lists registry k parent name bits q) : r = q := by
  obtain ⟨items, hresult, hitems⟩ := hr
  obtain ⟨items', hresult', hitems'⟩ := hq
  cases hresult.symm.trans hresult'
  exact (List.cons.inj (hitems.symm.trans hitems')).1

/-- A record is listed by the row that it is kept for, if the rows have different keys and none
clashes. -/
theorem lists_of_rows {rows : List k.Row} {row : k.Row} (hinv : w.inventory.All Placed)
    (hkept : w.inventory.find? k name = some record)
    (hparent : (k.reference? record).getD "" = parent)
    (hrows : ((w.inventory.rows registry k parent).run Simulation.answer w.engine).1 = .ok rows)
    (hkeys : (rows.map k.rowKey).Nodup) (hclash : ¬ w.inventory.Clashes k parent rows)
    (hrow : row ∈ rows) (hknown : w.inventory.known? k parent row = some record) :
    w.Lists registry k parent name bits (w.inventory.item k parent row) := by
  have hplaced := hinv k name record hkept
  have hfound := hplaced.parentOf
  rw [hparent] at hfound
  rw [← Procedure.result_ofScript] at hrows
  obtain ⟨items, hresult, hperm⟩ :=
    Inventory.exists_items_of_rows (Uuid.text bits) hfound hrows
  refine ⟨items, hresult, ?_⟩
  rw [← hplaced.key]
  exact Inventory.filter_items_eq hinv hkeys hclash hrow hknown hperm

/-- Where records are looked up by the names that rows get, no row clashes. -/
theorem lists_of_lookup {rows : List k.Row} {row : k.Row}
    (hk : k ∈ [Kind.controller, .virtioBlk, .scsiController]) (hinv : w.inventory.All Placed)
    (hkept : w.inventory.find? k name = some record)
    (hparent : (k.reference? record).getD "" = parent)
    (hrows : ((w.inventory.rows registry k parent).run Simulation.answer w.engine).1 = .ok rows)
    (hkeys : (rows.map k.rowKey).Nodup) (hrow : row ∈ rows)
    (hknown : w.inventory.known? k parent row = some record) :
    w.Lists registry k parent name bits (w.inventory.item k parent row) := by
  have hclash : ¬ w.inventory.Clashes k parent rows := fun hclash =>
    Inventory.not_shadows_of_mem hk rows (hclash.shadows hinv)
  exact lists_of_rows hinv hkept hparent hrows hkeys hclash hrow hknown

end World

/-! ## The two ways -/

/-- What a record tells of its object: a controller tells whether it is active, if it tells anything.
A record of another kind is only shown with an object, which is active. -/
def Kind.active? : (k : Kind) → k.Record → Option Bool
  | .controller, c => c.status.map (·.active)
  | .subsystem, _ | .nvmeNamespace, _ | .virtioBlk, _ | .scsiController, _ | .scsiLun, _ =>
    some true

namespace World

variable {registry : Attach.Registry} {w : World} {name : String} {bits bits' : Nat}

/-- How looking a record up and listing it can go together. -/
inductive Settles (registry : Attach.Registry) (w : World) (k : Kind) (parent name : String)
    (bits bits' : Nat) : Prop
  /-- The record is found, and it is listed as it is found. -/
  | found {r : k.Record}
      (hget : w.result registry ⟨k, .get name, bits⟩ = .ok (.record r))
      (hlists : w.Lists registry k parent name bits' r) (hactive : k.active? r = some true)
  /-- The listener of a controller is not there, and the controller is listed as inactive. -/
  | inactive {r : k.Record}
      (hget : w.result registry ⟨k, .get name, bits⟩ = .error (.unlisted (.controller name)))
      (hlists : w.Lists registry k parent name bits' r) (hactive : k.active? r = some false)
  /-- The parent is not kept, so that nothing is found and nothing listed. -/
  | orphaned
      (hget : w.result registry ⟨k, .get name, bits⟩ = .error (.unknown (.record parent)))
      (hlist : w.result registry ⟨k, .list { parent }, bits'⟩ = .error (.unknown (.record parent)))

/-- The row of the subsystem that is kept. -/
theorem rowOf?_of_kept (hroot : w.Rooted) (hlabelled : w.engine.Labelled) {r : Subsystem}
    (hkept : w.inventory.find? .subsystem name = some r) :
    ∃ row, Engine.rowOf? r.spec.nqn w.engine.subsystems.values = some row ∧
      row ∈ w.engine.subsystems.values ∧ row.nqn = r.spec.nqn ∧ row.isDiscovery = false := by
  obtain ⟨hne, row, hrow, -⟩ := hroot.subsystems.backed hkept
  obtain ⟨hnqn, hdiscovery⟩ := hlabelled.subsystems _ _ hrow
  refine ⟨row, ?_, Table.mem_values_of_find? hrow, hnqn, ?_⟩
  · rw [hlabelled.rowOf?_values, hrow]
  · rw [hdiscovery, beq_eq_false_iff_ne]
    exact hne

/-- The record that is kept for the row of a subsystem. -/
theorem known?_subsystem (hroot : w.Rooted) {r : Subsystem} {row : SubsystemRow}
    (hkept : w.inventory.find? .subsystem name = some r) (hnqn : row.nqn = r.spec.nqn) :
    w.inventory.known? .subsystem "" row = some r := by
  have hmem : r ∈ w.inventory.subsystems.values := Table.mem_values_of_find? hkept
  have hsome : (w.inventory.subsystems.values.find? (·.spec.nqn == row.nqn)).isSome :=
    List.find?_isSome.2 ⟨r, hmem, beq_iff_eq.2 hnqn.symm⟩
  obtain ⟨q, hq⟩ := Option.isSome_iff_exists.1 hsome
  obtain ⟨other, hother⟩ := Table.exists_find?_of_mem_values (List.mem_of_find?_eq_some hq)
  have hlabel : q.spec.nqn = row.nqn := by simpa using List.find?_some hq
  -- No two subsystems that are kept share a qualified name.
  obtain rfl := hroot.subsystems.distinct hother hkept (hlabel.trans hnqn)
  rw [Inventory.known?, hq, ← hother]
  exact hkept

theorem settles_subsystem (hroot : w.Rooted) (hlabelled : w.engine.Labelled)
    (hinv : w.inventory.All Placed) {r : Subsystem}
    (hkept : w.inventory.find? .subsystem name = some r) :
    w.Settles registry .subsystem "" name bits bits' := by
  obtain ⟨row, hrow, hmem, hnqn, hserves⟩ := rowOf?_of_kept hroot hlabelled hkept
  have hknown := known?_subsystem hroot hkept hnqn
  have hitem : w.inventory.item .subsystem "" row =
      { r with spec := Subsystems.withRow r.spec row } := by
    rw [Inventory.known?] at hknown
    rw [Inventory.item, Subsystems.ofRow, hknown]
  refine .found (r := w.inventory.item .subsystem "" row) ?_ ?_ rfl
  · rw [result_get hkept (hinv _ _ _ hkept)]
    show ((Engine.subsystems.bind _).run Simulation.answer w.engine).1.map Reply.record = _
    rw [Engine.run_subsystems_bind, hrow, hitem]
    rfl
  · let rows := w.engine.subsystems.values.filter fun row : SubsystemRow => !row.isDiscovery
    have hrowMem : row ∈ rows := List.mem_filter.2 ⟨hmem, by simp [hserves]⟩
    have hkeys : (rows.map (Kind.rowKey .subsystem)).Nodup := by
      refine List.Nodup.sublist (List.filter_sublist.map _) ?_
      exact Table.nodup_map_values fun _ _ h => (hlabelled.subsystems _ _ h).nqn_eq
    -- Every row that does not serve discovery has a record.
    have hclash : ¬ w.inventory.Clashes .subsystem "" rows := by
      rintro ⟨other, hother, -, -, hunknown, -⟩
      obtain ⟨hmem, hserves⟩ := List.mem_filter.1 hother
      obtain ⟨nqn, hfind⟩ := Table.exists_find?_of_mem_values hmem
      obtain ⟨hlabel, hdiscovery⟩ := hlabelled.subsystems _ _ hfind
      rcases hroot.subsystems.owned hfind with rfl | ⟨name, q, hq, rfl⟩
      · simp [hdiscovery] at hserves
      · rw [known?_subsystem hroot hq hlabel] at hunknown
        cases hunknown
    refine lists_of_rows hinv hkept rfl ?_ hkeys hclash hrowMem hknown
    show ((Engine.subsystems.bind _).run Simulation.answer w.engine).1 = _
    rw [Engine.run_subsystems_bind]
    rfl

/-- The rows of the vhost controllers with some kind of backend have different keys. -/
theorem nodup_ctrlr (hlabelled : w.engine.Labelled) (p : VhostRow → Bool) :
    ((w.engine.vhosts.values.filter p).map (·.ctrlr)).Nodup :=
  List.Nodup.sublist (List.filter_sublist.map _) (Table.nodup_map_values hlabelled.vhosts)

/-- The backend of the row with an id is that of the row. -/
theorem backendOf?_singleton {id : String} {row : VhostRow} (h : row.ctrlr = id) :
    Engine.backendOf? id [row] = some row.backend := by
  simp [Engine.backendOf?, h]

/-- The row for a record that is kept with a vhost controller of its own. -/
theorem exists_row_of_backed {α : Type} {k : Kind} {fits : α → Engine.Backend → Prop}
    {kept : Table α} (h : Backed k fits kept w.engine.vhosts) (hlabelled : w.engine.Labelled)
    {r : α} (hkept : kept.find? name = some r) :
    ∃ row, w.engine.vhosts.find? (Name.ownId name) = some row ∧ row.ctrlr = Name.ownId name ∧
      Name.compose k "" row.ctrlr = name ∧ fits r row.backend := by
  obtain ⟨row, hrow, hfits⟩ := h.backed hkept
  have hctrlr : row.ctrlr = Name.ownId name := hlabelled.vhosts _ _ hrow
  refine ⟨row, hrow, hctrlr, ?_, hfits⟩
  rw [hctrlr]
  exact (h.placed hkept).symm

theorem settles_virtioBlk (hroot : w.Rooted) (hlabelled : w.engine.Labelled)
    (hinv : w.inventory.All Placed) {d : VirtioBlk}
    (hkept : w.inventory.find? .virtioBlk name = some d) :
    w.Settles registry .virtioBlk "" name bits bits' := by
  have hplaced := hinv _ _ _ hkept
  obtain rfl : d.name = name := hplaced.key
  obtain ⟨row, hrow, hctrlr, hname, hfits, -⟩ :=
    exists_row_of_backed hroot.vhosts.blksBacked hlabelled hkept
  obtain ⟨block, hblock, -⟩ := Option.map_eq_some_iff.1 hfits
  have hknown : w.inventory.known? .virtioBlk "" row = some d := by
    rw [Inventory.known?, hname]
    exact hkept
  have hfound : w.inventory.virtioBlks.find? d.name = some d := hkept
  have hitem : w.inventory.item .virtioBlk "" row = { d with volumeNameRef := block.bdev } := by
    simp only [Inventory.item, hname, hfound, hblock, Option.map_some, Option.getD_some]
  refine .found (r := w.inventory.item .virtioBlk "" row) ?_ ?_ rfl
  · rw [result_get hkept hplaced]
    show ((Engine.Script.bind _ _).run Simulation.answer w.engine).1.map Reply.record = _
    rw [Engine.run_vhostController_bind hrow, backendOf?_singleton hctrlr, Option.bind_some,
      hblock, hitem]
    rfl
  · let rows := w.engine.vhosts.values.filter fun row : VhostRow => row.backend.block.isSome
    have hmem : row ∈ rows :=
      List.mem_filter.2 ⟨Table.mem_values_of_find? hrow, by simp [hblock]⟩
    have hkeys : (rows.map (Kind.rowKey .virtioBlk)).Nodup := nodup_ctrlr hlabelled _
    refine lists_of_lookup (k := .virtioBlk) (by decide) hinv hkept rfl ?_ hkeys hmem hknown
    show ((Engine.Script.bind _ _).run Simulation.answer w.engine).1 = _
    rw [Engine.run_vhostControllers_bind]
    rfl

theorem settles_scsiController (hroot : w.Rooted) (hlabelled : w.engine.Labelled)
    (hinv : w.inventory.All Placed) {c : ScsiController}
    (hkept : w.inventory.find? .scsiController name = some c) :
    w.Settles registry .scsiController "" name bits bits' := by
  have hplaced := hinv _ _ _ hkept
  obtain rfl : c.name = name := hplaced.key
  obtain ⟨row, hrow, hctrlr, hname, hfits, -⟩ :=
    exists_row_of_backed hroot.vhosts.controllersBacked hlabelled hkept
  obtain ⟨targets, htargets⟩ := Option.isSome_iff_exists.1 hfits
  have hknown : w.inventory.known? .scsiController "" row = some c := by
    rw [Inventory.known?, hname]
    exact hkept
  have hfound : w.inventory.scsiControllers.find? c.name = some c := hkept
  have hitem : w.inventory.item .scsiController "" row = c := by
    simp only [Inventory.item, hname, hfound, Option.getD_some]
  refine .found (r := w.inventory.item .scsiController "" row) ?_ ?_ rfl
  · rw [result_get hkept hplaced]
    show (((Engine.Script.bind _ _).bind _).run Simulation.answer w.engine).1.map Reply.record = _
    rw [Script.bind_assoc, Engine.run_vhostController_bind hrow, backendOf?_singleton hctrlr,
      Option.bind_some, htargets, hitem]
    rfl
  · let rows := w.engine.vhosts.values.filter fun row : VhostRow => row.backend.scsi.isSome
    have hmem : row ∈ rows :=
      List.mem_filter.2 ⟨Table.mem_values_of_find? hrow, by simp [htargets]⟩
    have hkeys : (rows.map (Kind.rowKey .scsiController)).Nodup := nodup_ctrlr hlabelled _
    refine lists_of_lookup (k := .scsiController) (by decide) hinv hkept rfl ?_ hkeys hmem hknown
    show ((Engine.Script.bind _ _).run Simulation.answer w.engine).1 = _
    rw [Engine.run_vhostControllers_bind]
    rfl

/-! ## Controllers -/

/-- A controller that is kept is listed as the row of its subsystem shows it. -/
theorem lists_controller (hinv : w.inventory.All Placed)
    (hattachable : w.inventory.All (Attachable registry)) {c : Controller} {s : Subsystem}
    {row : SubsystemRow} (hkept : w.inventory.find? .controller name = some c)
    (hs : w.inventory.find? .subsystem c.spec.subsystemNameRef = some s)
    (hrow : Engine.rowOf? s.spec.nqn w.engine.subsystems.values = some row) :
    w.Lists registry .controller c.spec.subsystemNameRef name bits
      (Controllers.shown registry s row c) := by
  let children := w.inventory.controllers.values.filter
    (·.spec.subsystemNameRef == c.spec.subsystemNameRef)
  have hchildren : ∀ child ∈ children, ∃ address, registry.ListensAt child address := by
    intro child hchild
    obtain ⟨other, hother⟩ := Table.exists_find?_of_mem_values (List.mem_filter.1 hchild).1
    exact hattachable .controller other child hother
  let rows := children.map (Controllers.shown registry s row)
  have hmem : Controllers.shown registry s row c ∈ rows :=
    List.mem_map_of_mem (List.mem_filter.2 ⟨Table.mem_values_of_find? hkept, beq_self_eq_true _⟩)
  have hkeys : (rows.map (Kind.rowKey .controller)).Nodup := by
    have hnames : rows.map (Kind.rowKey .controller) = children.map (·.name) := by
      rw [List.map_map]
      exact List.map_congr_left fun _ _ => Controllers.name_shown
    rw [hnames]
    exact List.Nodup.sublist (List.filter_sublist.map _)
      (Table.nodup_map_values fun name c hc => (hinv .controller name c hc).key)
  have hknown : w.inventory.known? .controller c.spec.subsystemNameRef
      (Controllers.shown registry s row c) = some c := by
    have hkey : c.name = name := (hinv _ _ _ hkept).key
    rw [Inventory.known?, Controllers.name_shown, hkey]
    exact hkept
  refine lists_of_lookup (k := .controller) (by decide) hinv hkept rfl ?_ hkeys hmem hknown
  show (((w.inventory.demand .subsystem c.spec.subsystemNameRef).bind _).run Simulation.answer
    w.engine).1 = _
  rw [Inventory.demand, hs]
  show ((Engine.subsystems.bind _).run Simulation.answer w.engine).1 = _
  rw [Engine.run_subsystems_bind, hrow]
  show ((Script.check (children.mapM (Controllers.withRow registry s row))).run Simulation.answer
    w.engine).1 = _
  rw [Controllers.mapM_withRow hchildren]
  rfl

theorem settles_controller (hroot : w.Rooted) (hlabelled : w.engine.Labelled)
    (hinv : w.inventory.All Placed) (hattachable : w.inventory.All (Attachable registry))
    {c : Controller} (hkept : w.inventory.find? .controller name = some c) :
    w.Settles registry .controller c.spec.subsystemNameRef name bits bits' := by
  have hplaced := hinv _ _ _ hkept
  have hparent : Place.parentOf .controller c.spec.subsystemNameRef "" =
      .ok c.spec.subsystemNameRef := hplaced.parentOf
  cases hs : w.inventory.find? .subsystem c.spec.subsystemNameRef with
  | none =>
    have hdemand : w.inventory.demand .subsystem c.spec.subsystemNameRef =
        .failed (.unknown (.record c.spec.subsystemNameRef)) := by
      rw [Inventory.demand, hs]
      rfl
    refine .orphaned ?_ (result_list_of_error hparent ?_)
    · rw [result_get hkept hplaced]
      show (((w.inventory.demand .subsystem c.spec.subsystemNameRef).bind _).run Simulation.answer
        w.engine).1.map Reply.record = _
      rw [hdemand]
      rfl
    · show (((w.inventory.demand .subsystem c.spec.subsystemNameRef).bind _).run Simulation.answer
        w.engine).1 = _
      rw [hdemand]
      rfl
  | some s =>
    have hdemand : w.inventory.demand .subsystem c.spec.subsystemNameRef = .done s := by
      rw [Inventory.demand, hs]
      rfl
    obtain ⟨row, hrow, -⟩ := rowOf?_of_kept hroot hlabelled hs
    obtain ⟨address, hlistens⟩ := hattachable _ _ _ hkept
    obtain ⟨listener, hlistener, rfl⟩ := hlistens s
    have hlists : w.Lists registry .controller c.spec.subsystemNameRef name bits'
        (Controllers.shown registry s row c) :=
      lists_controller hinv hattachable hkept hs hrow
    have hshown : Controllers.shown registry s row c =
        { c with status := some ⟨Controllers.isActive listener.listenAddress row⟩ } :=
      Controllers.shown_eq hlistens
    have hget : w.result registry ⟨.controller, .get name, bits⟩ =
        if Controllers.isActive listener.listenAddress row then
          .ok (.record { c with status := some ⟨true⟩ })
        else .error (.unlisted (.controller name)) := by
      rw [result_get hkept hplaced]
      show (((w.inventory.demand .subsystem c.spec.subsystemNameRef).bind _).run Simulation.answer
        w.engine).1.map Reply.record = _
      rw [hdemand, Script.done_bind, hlistener]
      show ((Engine.subsystems.bind _).run Simulation.answer w.engine).1.map Reply.record = _
      rw [Engine.run_subsystems_bind, hrow, Option.any_some]
      split <;> rfl
    cases hactive : Controllers.isActive listener.listenAddress row with
    | true =>
      rw [hactive, if_pos rfl] at hget
      rw [hactive] at hshown
      rw [hshown] at hlists
      exact .found hget hlists rfl
    | false =>
      rw [hactive, if_neg Bool.false_ne_true] at hget
      rw [hactive] at hshown
      rw [hshown] at hlists
      exact .inactive hget hlists rfl

/-! ## Any actions -/

section

variable {k : Kind} {parent : String} (r : k.Record)

theorem Settles.ok_iff (h : w.Settles registry k parent name bits bits') :
    w.result registry ⟨k, .get name, bits⟩ = .ok (.record r) ↔
      w.Lists registry k parent name bits' r ∧ k.active? r = some true := by
  cases h with
  | found hget hlists hactive =>
    rw [hget]
    constructor
    · rintro ⟨⟩
      exact ⟨hlists, hactive⟩
    · rintro ⟨hr, -⟩
      rw [hlists.unique hr]
  | inactive hget hlists hinactive =>
    rw [hget]
    refine ⟨nofun, fun ⟨hr, hactive⟩ => ?_⟩
    rw [← hlists.unique hr, hinactive] at hactive
    cases hactive
  | orphaned hget hlist =>
    rw [hget]
    refine ⟨nofun, fun ⟨⟨items, hresult, _⟩, _⟩ => ?_⟩
    cases hlist.symm.trans hresult

theorem Settles.unlisted_iff (h : w.Settles registry k parent name bits bits') :
    w.result registry ⟨k, .get name, bits⟩ = .error (.unlisted (.controller name)) ↔
      ∃ r, w.Lists registry k parent name bits' r ∧ k.active? r = some false := by
  cases h with
  | found hget hlists hactive =>
    rw [hget]
    refine ⟨nofun, fun ⟨r, hr, hinactive⟩ => ?_⟩
    rw [← hlists.unique hr, hactive] at hinactive
    cases hinactive
  | inactive hget hlists hinactive => exact ⟨fun _ => ⟨_, hlists, hinactive⟩, fun _ => hget⟩
  | orphaned hget hlist =>
    rw [hget]
    refine ⟨nofun, fun ⟨r, ⟨items, hresult, _⟩, _⟩ => ?_⟩
    cases hlist.symm.trans hresult

end

/-- After any actions, looking a record up that is kept and listing it go together in one of the
ways. -/
theorem settles_after (registry : Attach.Registry) (actions : List Action) {k : Kind}
    (hk : k ∈ [Kind.subsystem, .controller, .virtioBlk, .scsiController]) {record : k.Record}
    (hkept : (after registry actions).inventory.find? k name = some record) :
    (after registry actions).Settles registry k ((k.reference? record).getD "") name bits bits' := by
  have hroot := rooted_after registry actions
  have hlabelled := labelled_after registry actions
  have hinv := placed_after registry actions
  cases k with
  | subsystem => exact settles_subsystem hroot hlabelled hinv hkept
  | controller =>
    exact settles_controller hroot hlabelled hinv (attachable_after registry actions) hkept
  | virtioBlk => exact settles_virtioBlk hroot hlabelled hinv hkept
  | scsiController => exact settles_scsiController hroot hlabelled hinv hkept
  | nvmeNamespace | scsiLun => exact absurd hk (by decide)

/-- After any actions, looking up a subsystem, a controller, a virtio-blk device or a SCSI controller
that is kept comes to a record exactly when the unpaged listing under its parent succeeds, the record
is the only item with the name, and it is active. The listener of a controller is reported missing
exactly when the only item with the name is inactive. -/
theorem get_iff_lists (registry : Attach.Registry) (actions : List Action) {k : Kind}
    (hk : k ∈ [Kind.subsystem, .controller, .virtioBlk, .scsiController]) {name : String}
    {record : k.Record} (hkept : (after registry actions).inventory.find? k name = some record)
    (bits bits' : Nat) :
    let w := after registry actions
    let parent := (k.reference? record).getD ""
    let got := w.result registry ⟨k, .get name, bits⟩
    (∀ r, got = .ok (.record r) ↔
      w.Lists registry k parent name bits' r ∧ k.active? r = some true) ∧
    (got = .error (.unlisted (.controller name)) ↔
      ∃ r, w.Lists registry k parent name bits' r ∧ k.active? r = some false) := by
  intro w parent got
  have hsettles : w.Settles registry k parent name bits bits' :=
    settles_after registry actions hk hkept
  exact ⟨fun r => hsettles.ok_iff r, hsettles.unlisted_iff⟩

/-- A controller that has been attached to a subsystem is listed as it is looked up. -/
theorem lists_attached_controller :
    let subsystem : Subsystem := { spec := { nqn := "nqn.2022-09.io.spdk:one" } }
    let controller : Controller := { spec := { trtype := .pcie } }
    let w := after {}
      [.take ⟨.subsystem, .create "" subsystem "s1", 0⟩,
       .take ⟨.controller, .create "//storage.bridge.dev/subsystems/s1" controller "c1", 0⟩]
    ∃ r, w.result {} ⟨.controller, .get "//storage.bridge.dev/subsystems/s1/controllers/c1", 0⟩ =
        .ok (.record r) ∧
      w.Lists {} .controller "//storage.bridge.dev/subsystems/s1"
        "//storage.bridge.dev/subsystems/s1/controllers/c1" 0 r := by
  intro subsystem controller w
  let made : Controller :=
    { name := "//storage.bridge.dev/subsystems/s1/controllers/c1"
      spec := { subsystemNameRef := "//storage.bridge.dev/subsystems/s1", trtype := .pcie }
      status := some ⟨true⟩ }
  have hkept : w.inventory.find? .controller "//storage.bridge.dev/subsystems/s1/controllers/c1" =
      some made := by
    decide +kernel
  have hget : w.result {} ⟨.controller,
      .get "//storage.bridge.dev/subsystems/s1/controllers/c1", 0⟩ = .ok (.record made) := by
    decide +kernel
  exact ⟨made, hget, (((get_iff_lists {} _ (by decide) hkept 0 0).1 made).1 hget).1⟩

end World

end StorageControl
