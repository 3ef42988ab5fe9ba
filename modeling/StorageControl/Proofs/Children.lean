/-
# Records under a parent

The nested records that are kept under a parent have slots of their own, unless the parent has been
deleted before them: its object is gone then, and theirs with it, but they are kept. When the parent
is created again they still have no object, or the object of another record.
-/
import StorageControl.Proofs.Ledger
import StorageControl.Proofs.Nested

namespace StorageControl

variable {registry : Attach.Registry}

/-! ## Parents -/

/-- A nested record is nobody's parent. -/
theorem Kind.parent?_ne_of_parent? {j owner : Kind} (hj : j.parent? = some owner) (k : Kind) :
    k.parent? ≠ some j := by
  intro hk
  cases k <;> cases hk <;> cases hj

/-- The parent of records of a kind is kept under a name. -/
def Inventory.hasParent (inv : Inventory) (k : Kind) (parent : String) : Bool :=
  k.parent?.any fun owner => (inv.find? owner parent).isSome

namespace Inventory

variable {inv : Inventory} {k j owner : Kind} {name parent : String}

theorem hasParent_eq (hk : k.parent? = some owner) (parent : String) :
    inv.hasParent k parent = (inv.find? owner parent).isSome := by
  rw [hasParent, hk]
  rfl

/-- Only nested records have parents. -/
theorem exists_owner (h : inv.hasParent k parent = true) : ∃ owner, k.parent? = some owner := by
  cases hk : k.parent? with
  | none =>
    rw [hasParent, hk] at h
    cases h
  | some owner => exact ⟨owner, rfl⟩

theorem hasParent_keep_self (hk : k.parent? = some j) (record : j.Record) :
    (inv.keep j name record).hasParent k name = true := by
  rw [hasParent_eq hk, find?_keep_self]
  rfl

theorem hasParent_drop_self (hk : k.parent? = some j) :
    (inv.drop j name).hasParent k name = false := by
  rw [hasParent_eq hk, find?_drop_self]
  rfl

/-- A record that is kept is the parent of records that lie under its name. -/
theorem hasParent_keep_of_ne (hne : ¬ (parent = name ∧ k.parent? = some j)) (record : j.Record) :
    (inv.keep j name record).hasParent k parent = inv.hasParent k parent := by
  cases hk : k.parent? with
  | none => rw [hasParent, hasParent, hk]; rfl
  | some owner =>
    rw [hasParent_eq hk, hasParent_eq hk]
    by_cases howner : owner = j
    · subst howner
      rw [find?_keep_of_ne _ fun hp => hne ⟨hp, hk⟩]
    · rw [find?, table_keep_of_ne _ howner, ← find?]

theorem hasParent_drop_of_ne (hne : ¬ (parent = name ∧ k.parent? = some j)) :
    (inv.drop j name).hasParent k parent = inv.hasParent k parent := by
  cases hk : k.parent? with
  | none => rw [hasParent, hasParent, hk]; rfl
  | some owner =>
    rw [hasParent_eq hk, hasParent_eq hk]
    by_cases howner : owner = j
    · subst howner
      rw [find?_drop_of_ne _ fun hp => hne ⟨hp, hk⟩]
    · rw [find?, table_drop_of_ne _ howner, ← find?]

/-- Revising a record leaves it a parent. -/
theorem hasParent_keep_of_find? {kept : j.Record} (hkept : inv.find? j name = some kept)
    (record : j.Record) : (inv.keep j name record).hasParent k parent = inv.hasParent k parent := by
  by_cases hparent : parent = name ∧ k.parent? = some j
  · obtain ⟨rfl, hk⟩ := hparent
    rw [hasParent_keep_self hk, hasParent_eq hk, hkept]
    rfl
  · exact hasParent_keep_of_ne hparent record

theorem hasParent_congr {inv' : Inventory} (h : ∀ k, inv'.table k = inv.table k) :
    inv'.hasParent k parent = inv.hasParent k parent := by
  simp only [hasParent, find?, h]

end Inventory

/-! ## Children -/

/-- The slot of a record that is kept, if it lies under the parent. -/
def childSlot? (registry : Attach.Registry) (parent : String) (k : Kind)
    (entry : String × k.Record) : Option Slot :=
  if (k.family registry).reference entry.2 = parent then slotOf? registry k entry.2 else none

/-- The slots of the children that are kept under a parent. -/
def Inventory.children (registry : Attach.Registry) (inv : Inventory) (k : Kind)
    (parent : String) : Multiset Slot :=
  (inv.table k).contents.filterMap (childSlot? registry parent k)

namespace Inventory

variable {inv : Inventory} {k j : Kind} {name parent : String} {record : k.Record} {slot : Slot}

theorem mem_children {inv : Inventory} {k : Kind} {parent : String} {slot : Slot} :
    slot ∈ inv.children registry k parent ↔ ∃ name record, inv.find? k name = some record ∧
      (k.family registry).reference record = parent ∧ slotOf? registry k record = some slot := by
  rw [children, Multiset.mem_filterMap]
  constructor
  · rintro ⟨⟨name, record⟩, hmem, hslot⟩
    rw [Table.mem_contents] at hmem
    simp only [childSlot?] at hslot
    split at hslot
    · rename_i href
      exact ⟨name, record, hmem, href, hslot⟩
    · cases hslot
  · rintro ⟨name, record, hfind, href, hslot⟩
    refine ⟨(name, record), Table.mem_contents.2 hfind, ?_⟩
    rw [childSlot?, if_pos href, hslot]

/-- A record without parent is no child. -/
theorem children_eq_zero (hk : k.parent? = none) (inv : Inventory) (parent : String) :
    inv.children registry k parent = 0 := by
  apply Multiset.eq_zero_of_forall_notMem
  intro slot hmem
  obtain ⟨_, record, -, -, hslot⟩ := mem_children.1 hmem
  cases k with
  | subsystem | virtioBlk | scsiController => cases hslot
  | controller | nvmeNamespace | scsiLun => cases hk

theorem children_congr {inv' : Inventory} (h : inv'.table k = inv.table k) (parent : String) :
    inv'.children registry k parent = inv.children registry k parent := by
  rw [children, h, ← children]

/-- A record that is made under the parent is one child more. -/
theorem children_keep (hnew : inv.find? k name = none)
    (href : (k.family registry).reference record = parent)
    (hslot : slotOf? registry k record = some slot) :
    (inv.keep k name record).children registry k parent =
      slot ::ₘ inv.children registry k parent := by
  rw [children, keep, table_withTable_self, Table.contents_insert hnew]
  apply Multiset.filterMap_cons_some
  rw [childSlot?, if_pos href, hslot]

/-- A record that is made under another parent is not a child. -/
theorem children_keep_of_ne (hnew : inv.find? k name = none)
    (href : (k.family registry).reference record ≠ parent) :
    (inv.keep k name record).children registry k parent =
      inv.children registry k parent := by
  rw [children, keep, table_withTable_self, Table.contents_insert hnew]
  apply Multiset.filterMap_cons_none
  rw [childSlot?, if_neg href]

/-- A record that is dropped under the parent was a child. -/
theorem children_drop (hkept : inv.find? k name = some record)
    (href : (k.family registry).reference record = parent)
    (hslot : slotOf? registry k record = some slot) :
    inv.children registry k parent =
      slot ::ₘ (inv.drop k name).children registry k parent := by
  rw [children, children, drop, table_withTable_self, Table.contents_eq_cons_erase hkept]
  apply Multiset.filterMap_cons_some
  rw [childSlot?, if_pos href, hslot]

/-- A record that is dropped under another parent was not a child. -/
theorem children_drop_of_ne (hkept : inv.find? k name = some record)
    (href : (k.family registry).reference record ≠ parent) :
    (inv.drop k name).children registry k parent = inv.children registry k parent := by
  symm
  rw [children, children, drop, table_withTable_self, Table.contents_eq_cons_erase hkept]
  apply Multiset.filterMap_cons_none
  rw [childSlot?, if_neg href]

/-- A record that is revised is a child if it was one. -/
theorem children_revise {kept : k.Record} (hkept : inv.find? k name = some kept)
    (href : (k.family registry).reference record = (k.family registry).reference kept)
    (hslot : slotOf? registry k record = slotOf? registry k kept) :
    (inv.keep k name record).children registry k parent =
      inv.children registry k parent := by
  rw [children, children, keep, table_withTable_self, Table.contents_insert_eq_cons_erase,
    Table.contents_eq_cons_erase hkept]
  have hsame : childSlot? registry parent k (name, record) =
      childSlot? registry parent k (name, kept) := by
    rw [childSlot?, childSlot?, href, hslot]
  cases hkept : childSlot? registry parent k (name, kept) with
  | none =>
    rw [Multiset.filterMap_cons_none _ _ hkept,
      Multiset.filterMap_cons_none _ _ (hsame.trans hkept)]
  | some slot =>
    rw [Multiset.filterMap_cons_some _ _ _ hkept,
      Multiset.filterMap_cons_some _ _ _ (hsame.trans hkept)]

end Inventory

/-! ## The accounts of a parent -/

namespace World

variable {w w' : World} {k : Kind} {parent : String}

/-- The children that are kept and the slots that the engine lists. -/
def balance (registry : Attach.Registry) (w : World) (k : Kind) (parent : String) : Balance where
  up := w.inventory.hasParent k parent
  children := w.inventory.children registry k parent
  slots := ↑((w.slots parent k).filter Slot.usable)

theorem balance_eq (hup : w'.inventory.hasParent k parent = w.inventory.hasParent k parent)
    (hchildren : w'.inventory.children registry k parent = w.inventory.children registry k parent)
    (hslots : (w'.slots parent k).filter Slot.usable = (w.slots parent k).filter Slot.usable) :
    w'.balance registry k parent = w.balance registry k parent := by
  rw [balance, hup, hchildren, hslots, ← balance]

/-- A nested record is made. -/
theorem move_of_fills {j owner : Kind} (hj : j.parent? = some owner) {name p : String}
    {record : j.Record} {slot : Slot} (hnew : w.inventory.find? j name = none)
    (hinventory : w'.inventory = w.inventory.keep j name record)
    (hslot : slotOf? registry j record = some slot) (husable : slot.usable)
    (href : (j.family registry).reference record = p)
    (hparent : (w.inventory.find? owner p).isSome) (hfills : Fills w w' p j slot) :
    Balance.Move (w.balance registry k parent) (w'.balance registry k parent) := by
  have hup : w'.inventory.hasParent k parent = w.inventory.hasParent k parent := by
    rw [hinventory, Inventory.hasParent_keep_of_ne fun h => Kind.parent?_ne_of_parent? hj k h.2]
  by_cases hchild : parent = p ∧ k = j
  · obtain ⟨rfl, rfl⟩ := hchild
    have hkept : w.inventory.hasParent k parent = true :=
      (Inventory.hasParent_eq hj parent).trans hparent
    have hbefore : w.balance registry k parent = ⟨true, w.inventory.children registry k parent,
        ↑((w.slots parent k).filter Slot.usable)⟩ := by
      rw [balance, hkept]
    -- The new slot stands last in the list, and in an account it does not matter where.
    have hafter : w'.balance registry k parent =
        ⟨true, slot ::ₘ w.inventory.children registry k parent,
          slot ::ₘ ↑((w.slots parent k).filter Slot.usable)⟩ := by
      have hchildren := Inventory.children_keep hnew href hslot
      have hone : [slot].filter Slot.usable = [slot] := by
        rw [List.filter_cons_of_pos husable, List.filter_nil]
      rw [balance, hup, hkept, hinventory, hchildren, hfills.filled, List.filter_append, hone]
      congr 1
      exact Multiset.coe_eq_coe.2 (List.perm_append_singleton slot _)
    rw [hbefore, hafter]
    apply Balance.Move.attach
    intro hmem
    exact hfills.free (List.mem_of_mem_filter (Multiset.mem_coe.1 hmem))
  · apply Balance.Move.of_eq
    apply balance_eq hup
    · rw [hinventory]
      by_cases hkj : k = j
      · subst hkj
        exact Inventory.children_keep_of_ne hnew fun h => hchild ⟨by rw [← h, href], rfl⟩
      · exact Inventory.children_congr (Inventory.table_keep_of_ne _ hkj _ _) parent
    · rw [hfills.other parent k hchild]

/-- A nested record is dropped. -/
theorem move_of_clears {j owner : Kind} (hj : j.parent? = some owner) {name p : String}
    {record : j.Record} {slot : Slot} (hkept : w.inventory.find? j name = some record)
    (hinventory : w'.inventory = w.inventory.drop j name)
    (hslot : slotOf? registry j record = some slot) (husable : slot.usable)
    (href : (j.family registry).reference record = p)
    (hparent : (w.inventory.find? owner p).isSome) (hclears : Clears w w' p j slot) :
    Balance.Move (w.balance registry k parent) (w'.balance registry k parent) := by
  have hup : w'.inventory.hasParent k parent = w.inventory.hasParent k parent := by
    rw [hinventory, Inventory.hasParent_drop_of_ne fun h => Kind.parent?_ne_of_parent? hj k h.2]
  by_cases hchild : parent = p ∧ k = j
  · obtain ⟨rfl, rfl⟩ := hchild
    have hthere : w.inventory.hasParent k parent = true :=
      (Inventory.hasParent_eq hj parent).trans hparent
    have hbefore : w.balance registry k parent =
        ⟨true, slot ::ₘ w'.inventory.children registry k parent,
          ↑((w.slots parent k).filter Slot.usable)⟩ := by
      rw [balance, hthere, hinventory, ← Inventory.children_drop hkept href hslot]
    have hafter : w'.balance registry k parent = ⟨true, w'.inventory.children registry k parent,
        (↑((w.slots parent k).filter Slot.usable) : Multiset Slot).filter (· ≠ slot)⟩ := by
      rw [balance, hup, hthere, hclears.cleared, List.filter_comm]
      rfl
    rw [hbefore, hafter]
    apply Balance.Move.detach
    exact Multiset.mem_coe.2 (List.mem_filter.2 ⟨hclears.filled, husable⟩)
  · apply Balance.Move.of_eq
    apply balance_eq hup
    · rw [hinventory]
      by_cases hkj : k = j
      · subst hkj
        exact Inventory.children_drop_of_ne hkept fun h => hchild ⟨by rw [← h, href], rfl⟩
      · exact Inventory.children_congr (Inventory.table_drop_of_ne _ hkj _) parent
    · rw [hclears.other parent k hchild]

/-- A record without parent that comes or goes leaves the children of all parents alone. -/
theorem children_of_root {j : Kind} (hj : j.parent? = none)
    (hsame : ∀ i, i ≠ j → w'.inventory.table i = w.inventory.table i) :
    w'.inventory.children registry k parent = w.inventory.children registry k parent := by
  by_cases hkj : k = j
  · rw [hkj, Inventory.children_eq_zero hj, Inventory.children_eq_zero hj]
  · exact Inventory.children_congr (hsame k hkj) parent

/-- A parent is made. -/
theorem move_of_keep_root {j : Kind} (hj : j.parent? = none) {name : String} {record : j.Record}
    (hnew : w.inventory.find? j name = none)
    (hinventory : w'.inventory = w.inventory.keep j name record)
    (hempties : Empties w w' name j) :
    Balance.Move (w.balance registry k parent) (w'.balance registry k parent) := by
  have hchildren : w'.inventory.children registry k parent =
      w.inventory.children registry k parent :=
    children_of_root hj fun i hi => by rw [hinventory, Inventory.table_keep_of_ne _ hi]
  by_cases hchild : parent = name ∧ k.parent? = some j
  · obtain ⟨rfl, hk⟩ := hchild
    have hbefore : w.balance registry k parent =
        ⟨false, w.inventory.children registry k parent, 0⟩ := by
      rw [balance, Inventory.hasParent_eq hk, hnew, slots_eq_nil hk hnew]
      rfl
    -- Children of an earlier parent of the name are children of this one.
    have hafter : w'.balance registry k parent =
        ⟨true, w.inventory.children registry k parent, 0⟩ := by
      rw [balance, hchildren, hempties.emptied k hk, hinventory,
        Inventory.hasParent_keep_self hk]
      rfl
    rw [hbefore, hafter]
    exact .found
  · apply Balance.Move.of_eq
    apply balance_eq _ hchildren
    · rw [hempties.other parent k hchild]
    · rw [hinventory, Inventory.hasParent_keep_of_ne hchild]

/-- A parent is dropped. -/
theorem move_of_drop_root {j : Kind} (hj : j.parent? = none) {name : String} {record : j.Record}
    (hkept : w.inventory.find? j name = some record)
    (hinventory : w'.inventory = w.inventory.drop j name)
    (hempties : Empties w w' name j) :
    Balance.Move (w.balance registry k parent) (w'.balance registry k parent) := by
  have hchildren : w'.inventory.children registry k parent =
      w.inventory.children registry k parent :=
    children_of_root hj fun i hi => by rw [hinventory, Inventory.table_drop_of_ne _ hi]
  by_cases hchild : parent = name ∧ k.parent? = some j
  · obtain ⟨rfl, hk⟩ := hchild
    have hbefore : w.balance registry k parent =
        ⟨true, w.inventory.children registry k parent,
          ↑((w.slots parent k).filter Slot.usable)⟩ := by
      rw [balance, Inventory.hasParent_eq hk, hkept]
      rfl
    have hafter : w'.balance registry k parent =
        ⟨false, w.inventory.children registry k parent, 0⟩ := by
      rw [balance, hchildren, hempties.emptied k hk, hinventory,
        Inventory.hasParent_drop_self hk]
      rfl
    rw [hbefore, hafter]
    exact .lost
  · apply Balance.Move.of_eq
    apply balance_eq _ hchildren
    · rw [hempties.other parent k hchild]
    · rw [hinventory, Inventory.hasParent_drop_of_ne hchild]

/-! ## Every record has its slot -/

/-- Every nested record that is kept has a slot that it can have. -/
def Slotted (registry : Attach.Registry) (w : World) : Prop :=
  ∀ ⦃k : Kind⦄ ⦃name : String⦄ ⦃record : k.Record⦄, k.parent?.isSome →
    w.inventory.find? k name = some record →
      ∃ slot, slotOf? registry k record = some slot ∧ slot.usable

/-- A revised record has the slot of the one before. -/
theorem slotOf?_of_revise {kept revised : k.Record} {request : UpdateRequest k.Record}
    (hsupported : (k.family registry).updateUnsupported = none)
    (hrevise : Inventory.revise kept request = .ok revised) :
    slotOf? registry k revised = slotOf? registry k kept := by
  have hsame := Inventory.sameIdentity_of_revise hrevise
  cases k with
  | controller =>
    exact slot_of_listener_congr (Inventory.name_of_revise hrevise) hsame.trtype hsame.endpoint
  | nvmeNamespace => rw [slotOf?, slotOf?, hsame.hostNsid]
  | scsiLun => cases hsupported
  | subsystem | virtioBlk | scsiController => rfl

theorem Slotted.keep (h : w.Slotted registry) {j : Kind} {name : String} {record : j.Record}
    (hinventory : w'.inventory = w.inventory.keep j name record)
    (hrecord : j.parent?.isSome → ∃ slot, slotOf? registry j record = some slot ∧ slot.usable) :
    w'.Slotted registry := by
  intro k other q hk hq
  rw [hinventory] at hq
  by_cases hkj : k = j
  · subst hkj
    by_cases hother : other = name
    · rw [hother, Inventory.find?_keep_self] at hq
      cases hq
      exact hrecord hk
    · rw [Inventory.find?_keep_of_ne _ hother] at hq
      exact h hk hq
  · rw [Inventory.find?, Inventory.table_keep_of_ne _ hkj] at hq
    exact h hk hq

theorem Slotted.drop (h : w.Slotted registry) {j : Kind} {name : String}
    (hinventory : w'.inventory = w.inventory.drop j name) : w'.Slotted registry := by
  intro k other q hk hq
  rw [hinventory] at hq
  by_cases hkj : k = j
  · subst hkj
    by_cases hother : other = name
    · rw [hother, Inventory.find?_drop_self] at hq
      cases hq
    · rw [Inventory.find?_drop_of_ne _ hother] at hq
      exact h hk hq
  · rw [Inventory.find?, Inventory.table_drop_of_ne _ hkj] at hq
    exact h hk hq

theorem Slotted.shift (h : w.Slotted registry) (hrooted : w.Rooted)
    (hshift : Shift registry w w') : w'.Slotted registry := by
  cases hshift with
  | same htables _ =>
    intro k name record hk hrecord
    rw [Inventory.find?, htables] at hrecord
    exact h hk hrecord
  | littered hinventory _ =>
    intro k name record hk hrecord
    rw [hinventory] at hrecord
    exact h hk hrecord
  | revised hsupported hkept hrevise hinventory _ =>
    refine h.keep hinventory fun hk => ?_
    rw [slotOf?_of_revise hsupported hrevise]
    exact h hk hkept
  | made _ _ _ hinventory hgain =>
    refine h.keep hinventory fun hk => ?_
    obtain ⟨owner, howner⟩ := Option.isSome_iff_exists.1 hk
    obtain ⟨slot, hslot, husable, -⟩ := fills_of_gain hrooted howner hinventory hgain
    exact ⟨slot, hslot, husable⟩
  | dropped _ hinventory _ => exact h.drop hinventory

/-! ## Every action is a move -/

/-- The accounts of every parent change in one of the ways of the ledger. -/
theorem move (h : w.Rooted) (hslotted : w.Slotted registry) (hshift : Shift registry w w')
    (k : Kind) (parent : String) :
    Balance.Move (w.balance registry k parent) (w'.balance registry k parent) := by
  cases hshift with
  | same htables hobjects =>
    apply Balance.Move.of_eq
    apply balance_eq (Inventory.hasParent_congr htables)
      (Inventory.children_congr (htables k) parent)
    rw [slots_congr (row?_of_subsystems (htables .subsystem) hobjects.1 parent)
      (targets?_of_vhosts (htables .scsiController) hobjects.2 parent)]
  | littered hinventory hlitter =>
    apply Balance.Move.of_eq
    apply balance_eq _ _ (slots_of_litter hinventory hlitter parent k)
    · rw [hinventory]
    · rw [hinventory]
  | @revised j name kept revised request hsupported hkept hrevise hinventory hobjects =>
    apply Balance.Move.of_eq
    apply balance_eq
    · rw [hinventory, Inventory.hasParent_keep_of_find? hkept]
    · rw [hinventory]
      by_cases hkj : k = j
      · subst hkj
        exact Inventory.children_revise hkept (Inventory.reference_of_revise registry hrevise)
          (slotOf?_of_revise hsupported hrevise)
      · exact Inventory.children_congr (Inventory.table_keep_of_ne _ hkj _ _) parent
    · rw [slots_of_revise hkept hrevise hinventory hobjects]
  | @made j place record hplace hid hnew hinventory hgain =>
    cases hj : j.parent? with
    | some owner =>
      obtain ⟨slot, hslot, husable, href, hparent, hfills⟩ :=
        fills_of_gain h hj hinventory hgain
      exact move_of_fills hj hnew hinventory hslot husable href hparent hfills
    | none =>
      have hempties := empties_of_gain h hj hplace hid hinventory hgain
      exact move_of_keep_root hj hnew hinventory hempties
  | @dropped j name record hkept hinventory hloss =>
    cases hj : j.parent? with
    | some owner =>
      obtain ⟨slot, hslot, hparent, hclears⟩ := clears_of_loss h hj hinventory hloss
      -- The slot that is cleared is the one that the record has, and that can be used.
      obtain ⟨slot', hslot', husable⟩ := hslotted (hj ▸ rfl) hkept
      rw [hslot] at hslot'
      cases hslot'
      exact move_of_clears hj hkept hinventory hslot husable rfl hparent hclears
    | none =>
      have hempties := empties_of_loss h hj hkept hinventory hloss
      exact move_of_drop_root hj hkept hinventory hempties

end World

end StorageControl
