/-
# The slots of nested records

A nested record stands for a part of its parent's object: a controller for an address that the
subsystem listens at, a namespace for a number on the subsystem, a LUN for a number on the bus.
These parts are slots. An action fills at most one slot or clears at most one, or it changes the
parent.
-/
import StorageControl.Proofs.Attach
import StorageControl.Proofs.Roots

namespace StorageControl

open Engine (ListenAddress NamespaceRow SubsystemRow TargetRow VhostRow)

/-! ## Slots -/

/-- A part of an object. Endpoints have the transport in lower case. -/
inductive Slot where
  | endpoint (trtype : List Char) (traddr trsvcid : String)
  | nsid (n : Int32)
  | target (n : Int32)
deriving DecidableEq

/-- A record can have the slot. A record never has a number that the engine could not confirm. -/
def Slot.usable : Slot → Bool
  | .endpoint _ _ _ => true
  | .nsid n => decide (0 < n)
  | .target n => decide (0 ≤ n)

/-- The slot of an address. -/
def Engine.ListenAddress.slot (a : ListenAddress) : Slot :=
  .endpoint (Engine.lowercase a.trtype) a.traddr a.trsvcid

/-- The slot of a namespace that the engine lists. -/
def Engine.NamespaceRow.slot (row : NamespaceRow) : Slot :=
  .nsid row.nsid

/-- The slot of a target that the engine lists. -/
def Engine.TargetRow.slot (row : TargetRow) : Slot :=
  .target row.scsiDevNum

theorem Engine.ListenAddress.sameEndpoint_eq (a b : ListenAddress) :
    a.sameEndpoint b = decide (a.slot = b.slot) := by
  rw [Bool.eq_iff_iff]
  simp [sameEndpoint, slot, and_assoc]

theorem Engine.NamespaceRow.nsid_beq (row : NamespaceRow) (n : Int32) :
    (row.nsid == n) = decide (row.slot = .nsid n) := by
  simp [slot, beq_eq_decide]

theorem Engine.TargetRow.scsiDevNum_beq (row : TargetRow) (n : Int32) :
    (row.scsiDevNum == n) = decide (row.slot = .target n) := by
  simp [slot, beq_eq_decide]

/-- The slot of a nested record whose parent is kept. -/
def Inventory.slot? (registry : Attach.Registry) (inv : Inventory) : (k : Kind) → k.Record →
    Option Slot
  | .controller, c => do
    let s ← inv.find? .subsystem c.spec.subsystemNameRef
    let listener ← (registry.listener c s).toOption
    some listener.listenAddress.slot
  | .nvmeNamespace, n => some (.nsid n.spec.hostNsid)
  | .scsiLun, l => some (.target l.targetNum)
  | _, _ => none

/-- The slot of a nested record, whatever its parent is. -/
def slotOf? (registry : Attach.Registry) : (k : Kind) → k.Record → Option Slot
  | .controller, c => (registry.listener c {}).toOption.map (·.listenAddress.slot)
  | .nvmeNamespace, n => some (.nsid n.spec.hostNsid)
  | .scsiLun, l => some (.target l.targetNum)
  | _, _ => none

section

variable {registry : Attach.Registry}

theorem toOption_map {ε α β : Type} (f : α → β) (e : Except ε α) :
    (e.map f).toOption = e.toOption.map f := by
  cases e <;> rfl

/-- Controllers with the same name, transport and endpoint have the same slot. -/
theorem slot_of_listener_congr {c c' : Controller} {s s' : Subsystem} (hname : c'.name = c.name)
    (htrtype : c'.spec.trtype = c.spec.trtype) (hendpoint : c'.spec.endpoint = c.spec.endpoint) :
    (registry.listener c' s').toOption.map (·.listenAddress.slot) =
      (registry.listener c s).toOption.map (·.listenAddress.slot) := by
  have haddress : (registry.listener c' s').map (·.listenAddress) =
      (registry.listener c s).map (·.listenAddress) :=
    Attach.Registry.address_congr hname htrtype hendpoint
  have hoption := congrArg Except.toOption haddress
  rw [toOption_map, toOption_map] at hoption
  have hslot := congrArg (Option.map ListenAddress.slot) hoption
  rw [Option.map_map, Option.map_map] at hslot
  exact hslot

theorem slotOf?_of_listener {c : Controller} {s : Subsystem} {listener : Engine.Listener}
    (h : registry.listener c s = .ok listener) :
    slotOf? registry .controller c = some listener.listenAddress.slot := by
  rw [slotOf?, slot_of_listener_congr (s := s) rfl rfl rfl, h]
  rfl

/-- While its parent is kept, a record has its slot. -/
theorem Inventory.slot?_eq {inv : Inventory} {k owner : Kind} {record : k.Record}
    (hk : k.parent? = some owner)
    (hparent : (inv.find? owner ((k.family registry).reference record)).isSome) :
    inv.slot? registry k record = slotOf? registry k record := by
  cases k with
  | controller =>
    cases hk
    obtain ⟨s, hs⟩ := Option.isSome_iff_exists.1 hparent
    have hs : inv.find? .subsystem (record : Controller).spec.subsystemNameRef = some s := hs
    rw [slotOf?, slot_of_listener_congr (s := s) rfl rfl rfl]
    simp only [slot?, hs, Option.bind_eq_bind, Option.bind_some]
    cases registry.listener record s <;> rfl
  | nvmeNamespace | scsiLun => rfl
  | subsystem | virtioBlk | scsiController => cases hk

end

/-! ## The slots of a parent -/

namespace World

/-- The engine's row of a subsystem that is kept. -/
def row? (w : World) (name : String) : Option SubsystemRow := do
  let s ← w.inventory.find? .subsystem name
  w.engine.subsystems.find? s.spec.nqn

/-- The targets on the bus of a SCSI controller that is kept. -/
def targets? (w : World) (name : String) : Option (List TargetRow) := do
  let _ ← w.inventory.find? .scsiController name
  let row ← w.engine.vhosts.find? (Name.ownId name)
  row.backend.scsi

/-- The slots of a parent that records of a kind stand for, as the engine lists them. -/
def slots (w : World) (parent : String) : Kind → List Slot
  | .controller => (((w.row? parent).map (·.listenAddresses)).getD []).map (·.slot)
  | .nvmeNamespace => (((w.row? parent).map (·.namespaces)).getD []).map (·.slot)
  | .scsiLun => ((w.targets? parent).getD []).map (·.slot)
  | _ => []

variable {registry : Attach.Registry} {w w' : World}

theorem row?_of_find? {name : String} {r : Subsystem}
    (h : w.inventory.find? .subsystem name = some r) :
    w.row? name = w.engine.subsystems.find? r.spec.nqn := by
  rw [row?, h]
  rfl

theorem targets?_of_find? {name : String} {c : ScsiController} {row : VhostRow}
    (h : w.inventory.find? .scsiController name = some c)
    (hrow : w.engine.vhosts.find? (Name.ownId name) = some row) :
    w.targets? name = row.backend.scsi := by
  rw [targets?, h, hrow]
  rfl

/-- Slots depend on the subsystems alone, or on the SCSI controllers alone. -/
theorem slots_congr {name : String} (hrow : w'.row? name = w.row? name)
    (htargets : w'.targets? name = w.targets? name) (k : Kind) :
    w'.slots name k = w.slots name k := by
  cases k with
  | controller | nvmeNamespace =>
    simp only [slots]
    rw [hrow]
  | scsiLun =>
    simp only [slots]
    rw [htargets]
  | _ => rfl

/-- A subsystem has the row that it had if it is kept as it was and its row stays. -/
theorem row?_eq {name : String}
    (hkept : w'.inventory.find? .subsystem name = w.inventory.find? .subsystem name)
    (hrows : ∀ r, w.inventory.find? .subsystem name = some r →
      w'.engine.subsystems.find? r.spec.nqn = w.engine.subsystems.find? r.spec.nqn) :
    w'.row? name = w.row? name := by
  cases hr : w.inventory.find? .subsystem name with
  | none =>
    rw [row?, row?, hkept, hr]
    rfl
  | some r =>
    rw [row?_of_find? hr, ← hrows r hr]
    exact row?_of_find? (hkept.trans hr)

/-- A SCSI controller has the targets that it had if it is kept and its bus stays. -/
theorem targets?_eq {name : String}
    (hkept : w'.inventory.find? .scsiController name = w.inventory.find? .scsiController name)
    (hrows : ∀ c, w.inventory.find? .scsiController name = some c →
      w'.engine.vhosts.find? (Name.ownId name) = w.engine.vhosts.find? (Name.ownId name)) :
    w'.targets? name = w.targets? name := by
  cases hc : w.inventory.find? .scsiController name with
  | none =>
    rw [targets?, targets?, hkept, hc]
    rfl
  | some c => rw [targets?, targets?, hkept, hrows c hc]

/-! ### When the object of a parent changes -/

/-- The row of one subsystem is rewritten. No other subsystem that is kept has this row. -/
theorem row?_rewrite (h : w.Rooted) {parent : String} {p : Subsystem} {row : SubsystemRow}
    (hkept : w'.inventory.subsystems = w.inventory.subsystems)
    (hparent : w.inventory.find? .subsystem parent = some p)
    (hrows : w'.engine.subsystems = w.engine.subsystems.insert p.spec.nqn row) (name : String) :
    w'.row? name = if name = parent then some row else w.row? name := by
  have hfind (name : String) :
      w'.inventory.find? .subsystem name = w.inventory.find? .subsystem name :=
    congrArg (Table.find? · name) hkept
  split
  · rename_i hname
    rw [hname, row?_of_find? ((hfind parent).trans hparent), hrows, Table.find?_insert_self]
  · rename_i hname
    apply row?_eq (hfind name)
    intro r hr
    -- Subsystems that are kept have different qualified names.
    have hnqn : r.spec.nqn ≠ p.spec.nqn := fun hnqn =>
      hname (h.subsystems.distinct hr hparent hnqn)
    rw [hrows, Table.find?_insert_of_ne _ hnqn]

/-- The targets on one bus change. No other SCSI controller that is kept has this bus. -/
theorem targets?_rewrite (h : w.Rooted) {parent : String} {c : ScsiController} {row : VhostRow}
    (hkept : w'.inventory.scsiControllers = w.inventory.scsiControllers)
    (hparent : w.inventory.find? .scsiController parent = some c)
    (hrows : w'.engine.vhosts = w.engine.vhosts.insert (Name.ownId parent) row) (name : String) :
    w'.targets? name = if name = parent then row.backend.scsi else w.targets? name := by
  have hfind (name : String) :
      w'.inventory.find? .scsiController name = w.inventory.find? .scsiController name :=
    congrArg (Table.find? · name) hkept
  split
  · rename_i hname
    rw [hname]
    apply targets?_of_find? ((hfind parent).trans hparent)
    rw [hrows, Table.find?_insert_self]
  · rename_i hname
    apply targets?_eq (hfind name)
    intro q hq
    have hid : Name.ownId name ≠ Name.ownId parent := fun hid =>
      hname (h.vhosts.controllersBacked.eq_of_ownId hq hparent hid)
    rw [hrows, Table.find?_insert_of_ne _ hid]

/-! ### When a parent comes or goes -/

theorem row?_keep (h : w.Rooted) {name : String} {r : Subsystem} {row : SubsystemRow}
    (hinventory : w'.inventory = w.inventory.keep .subsystem name r)
    (hfree : w.engine.subsystems.find? r.spec.nqn = none)
    (hrows : w'.engine.subsystems = w.engine.subsystems.insert r.spec.nqn row) (other : String) :
    w'.row? other = if other = name then some row else w.row? other := by
  split
  · rename_i hother
    have hfind : w'.inventory.find? .subsystem name = some r := by
      rw [hinventory, Inventory.find?_keep_self]
    rw [hother, row?_of_find? hfind, hrows, Table.find?_insert_self]
  · rename_i hother
    apply row?_eq
    · rw [hinventory, Inventory.find?_keep_of_ne _ hother]
    · intro q hq
      rw [hrows, Table.find?_insert_of_ne]
      intro hnqn
      obtain ⟨-, found, hfound, -⟩ := h.subsystems.backed hq
      rw [hnqn, hfree] at hfound
      cases hfound

theorem row?_drop (h : w.Rooted) {name : String} {r : Subsystem}
    (hkept : w.inventory.find? .subsystem name = some r)
    (hinventory : w'.inventory = w.inventory.drop .subsystem name)
    (hrows : w'.engine.subsystems = w.engine.subsystems.erase r.spec.nqn) (other : String) :
    w'.row? other = if other = name then none else w.row? other := by
  split
  · rename_i hother
    rw [hother, row?, hinventory, Inventory.find?_drop_self]
    rfl
  · rename_i hother
    apply row?_eq
    · rw [hinventory, Inventory.find?_drop_of_ne _ hother]
    · intro q hq
      rw [hrows, Table.find?_erase_of_ne]
      intro hnqn
      exact hother (h.subsystems.distinct hq hkept hnqn)

theorem targets?_keep (h : w.Rooted) {name : String} {c : ScsiController} {row : VhostRow}
    (hinventory : w'.inventory = w.inventory.keep .scsiController name c)
    (hfree : w.engine.vhosts.find? (Name.ownId name) = none)
    (hrows : w'.engine.vhosts = w.engine.vhosts.insert (Name.ownId name) row) (other : String) :
    w'.targets? other = if other = name then row.backend.scsi else w.targets? other := by
  split
  · rename_i hother
    rw [hother]
    apply targets?_of_find? (c := c)
    · rw [hinventory, Inventory.find?_keep_self]
    · rw [hrows, Table.find?_insert_self]
  · rename_i hother
    apply targets?_eq
    · rw [hinventory, Inventory.find?_keep_of_ne _ hother]
    · intro q hq
      rw [hrows, Table.find?_insert_of_ne]
      intro hid
      obtain ⟨found, hfound, -⟩ := h.vhosts.controllersBacked.backed hq
      rw [hid, hfree] at hfound
      cases hfound

theorem targets?_drop (h : w.Rooted) {name : String} {c : ScsiController}
    (hkept : w.inventory.find? .scsiController name = some c)
    (hinventory : w'.inventory = w.inventory.drop .scsiController name)
    (hrows : w'.engine.vhosts = w.engine.vhosts.erase (Name.ownId name)) (other : String) :
    w'.targets? other = if other = name then none else w.targets? other := by
  split
  · rename_i hother
    rw [hother, targets?, hinventory, Inventory.find?_drop_self]
    rfl
  · rename_i hother
    apply targets?_eq
    · rw [hinventory, Inventory.find?_drop_of_ne _ hother]
    · intro q hq
      rw [hrows, Table.find?_erase_of_ne]
      intro hid
      exact hother (h.vhosts.controllersBacked.eq_of_ownId hq hkept hid)

/-! ### Slots -/

theorem slots_controller_of_row? {parent : String} {row : SubsystemRow}
    (h : w.row? parent = some row) :
    w.slots parent .controller = row.listenAddresses.map (·.slot) := by
  rw [slots, h]
  rfl

theorem slots_nvmeNamespace_of_row? {parent : String} {row : SubsystemRow}
    (h : w.row? parent = some row) :
    w.slots parent .nvmeNamespace = row.namespaces.map (·.slot) := by
  rw [slots, h]
  rfl

theorem slots_scsiLun_of_targets? {parent : String} {targets : List TargetRow}
    (h : w.targets? parent = some targets) :
    w.slots parent .scsiLun = targets.map (·.slot) := by
  rw [slots, h]
  rfl

/-- A parent that is not kept has no slots. -/
theorem slots_eq_nil {parent : String} {k owner : Kind} (hk : k.parent? = some owner)
    (h : w.inventory.find? owner parent = none) : w.slots parent k = [] := by
  cases k with
  | controller | nvmeNamespace =>
    cases hk
    rw [slots, row?, h]
    rfl
  | scsiLun =>
    cases hk
    rw [slots, targets?, h]
    rfl
  | subsystem | virtioBlk | scsiController => cases hk

/-- A slot of one parent is filled that was free, and nothing else changes. -/
structure Fills (w w' : World) (parent : String) (k : Kind) (slot : Slot) : Prop where
  free : slot ∉ w.slots parent k
  filled : w'.slots parent k = w.slots parent k ++ [slot]
  other : ∀ p j, ¬ (p = parent ∧ j = k) → w'.slots p j = w.slots p j

/-- A slot of one parent is cleared that was filled, and nothing else changes. -/
structure Clears (w w' : World) (parent : String) (k : Kind) (slot : Slot) : Prop where
  filled : slot ∈ w.slots parent k
  cleared : w'.slots parent k = (w.slots parent k).filter (· ≠ slot)
  other : ∀ p j, ¬ (p = parent ∧ j = k) → w'.slots p j = w.slots p j

/-- One parent has no slots afterwards, and nothing else changes. -/
structure Empties (w w' : World) (parent : String) (owner : Kind) : Prop where
  emptied : ∀ k, k.parent? = some owner → w'.slots parent k = []
  other : ∀ p j, ¬ (p = parent ∧ j.parent? = some owner) → w'.slots p j = w.slots p j

/-- One row changes, in nothing but one of its columns. -/
theorem other_of_row? {parent : String} {row row' : SubsystemRow} {k : Kind}
    (hrow : w.row? parent = some row)
    (hrows : ∀ name, w'.row? name = if name = parent then some row' else w.row? name)
    (htargets : ∀ name, w'.targets? name = w.targets? name)
    (hlisten : k ≠ .controller → row'.listenAddresses = row.listenAddresses)
    (hnamespaces : k ≠ .nvmeNamespace → row'.namespaces = row.namespaces) (p : String) (j : Kind)
    (hne : ¬ (p = parent ∧ j = k)) : w'.slots p j = w.slots p j := by
  by_cases hp : p = parent
  · subst hp
    have hrow' : w'.row? p = some row' := by
      rw [hrows, if_pos rfl]
    -- Of the two columns at most one is that of the kind; the other is as before.
    have hk : k ≠ j := fun hk => hne ⟨rfl, hk.symm⟩
    cases j with
    | controller => rw [slots_controller_of_row? hrow', slots_controller_of_row? hrow, hlisten hk]
    | nvmeNamespace =>
      rw [slots_nvmeNamespace_of_row? hrow', slots_nvmeNamespace_of_row? hrow, hnamespaces hk]
    | scsiLun =>
      simp only [slots]
      rw [htargets]
    | _ => rfl
  · exact slots_congr ((hrows p).trans (if_neg hp)) (htargets p) j

/-- The listen addresses of one row change. -/
theorem slots_of_listenAddresses {parent : String} {row : SubsystemRow}
    {addresses : List ListenAddress} (hrow : w.row? parent = some row)
    (hrows : ∀ name, w'.row? name =
      if name = parent then some { row with listenAddresses := addresses } else w.row? name)
    (htargets : ∀ name, w'.targets? name = w.targets? name) :
    w'.slots parent .controller = addresses.map (·.slot) ∧
      ∀ p j, ¬ (p = parent ∧ j = .controller) → w'.slots p j = w.slots p j := by
  constructor
  · rw [slots_controller_of_row? ((hrows parent).trans (if_pos rfl))]
  · exact other_of_row? hrow hrows htargets (absurd rfl) fun _ => rfl

/-- The namespaces of one row change. -/
theorem slots_of_namespaces {parent : String} {row : SubsystemRow} {rows : List NamespaceRow}
    (hrow : w.row? parent = some row)
    (hrows : ∀ name, w'.row? name =
      if name = parent then some { row with namespaces := rows } else w.row? name)
    (htargets : ∀ name, w'.targets? name = w.targets? name) :
    w'.slots parent .nvmeNamespace = rows.map (·.slot) ∧
      ∀ p j, ¬ (p = parent ∧ j = .nvmeNamespace) → w'.slots p j = w.slots p j := by
  constructor
  · rw [slots_nvmeNamespace_of_row? ((hrows parent).trans (if_pos rfl))]
  · exact other_of_row? hrow hrows htargets (fun _ => rfl) (absurd rfl)

/-- The targets of one bus change. -/
theorem slots_of_targets {parent : String} {targets : List TargetRow}
    (hrows : ∀ name, w'.row? name = w.row? name)
    (htargets : ∀ name, w'.targets? name =
      if name = parent then some targets else w.targets? name) :
    w'.slots parent .scsiLun = targets.map (·.slot) ∧
      ∀ p j, ¬ (p = parent ∧ j = .scsiLun) → w'.slots p j = w.slots p j := by
  have htargets' : w'.targets? parent = some targets := by
    rw [htargets, if_pos rfl]
  refine ⟨slots_scsiLun_of_targets? htargets', fun p j hne => ?_⟩
  cases j with
  | controller | nvmeNamespace =>
    simp only [slots]
    rw [hrows]
  | scsiLun =>
    have hp : p ≠ parent := fun hp => hne ⟨hp, rfl⟩
    simp only [slots]
    rw [htargets, if_neg hp]
  | _ => rfl

end World

end StorageControl
