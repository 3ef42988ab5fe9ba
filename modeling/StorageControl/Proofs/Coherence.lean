/-
# Nested records and the engine

When do the nested records that are kept under a parent have objects of their own? As long as the
parent is not deleted before them. This is the only way in which they lose their objects, and once
it has happened they are never all backed again while the parent is kept.
-/
import StorageControl.Proofs.Children
import Mathlib.Data.List.Induction

namespace StorageControl

namespace World

variable {registry : Attach.Registry} {w w' : World} {k : Kind} {parent : String}

/-! ## The property -/

/-- Every record that is kept under a parent has a slot that the engine lists for the parent, and no
two records have the same one. -/
structure ChildrenBacked (registry : Attach.Registry) (w : World) (k : Kind) (parent : String) :
    Prop where
  backed : ∀ name record, w.inventory.find? k name = some record →
    (k.family registry).reference record = parent →
      ∃ slot, w.inventory.slot? registry k record = some slot ∧ slot ∈ w.slots parent k
  distinct : ∀ name other record record', w.inventory.find? k name = some record →
    w.inventory.find? k other = some record' →
    (k.family registry).reference record = parent →
    (k.family registry).reference record' = parent →
    w.inventory.slot? registry k record = w.inventory.slot? registry k record' → name = other

/-- The children of a parent are backed if the parent is kept. -/
def Coherent (registry : Attach.Registry) (w : World) (k : Kind) (parent : String) : Prop :=
  w.inventory.hasParent k parent = true → w.ChildrenBacked registry k parent

/-- An action deletes a parent while records are kept under it. -/
def Strands (registry : Attach.Registry) (w : World) (a : Action) (k : Kind) (parent : String) :
    Prop :=
  w.inventory.hasParent k parent = true ∧ (w.act registry a).inventory.hasParent k parent = false ∧
    ∃ name record, w.inventory.find? k name = some record ∧
      (k.family registry).reference record = parent

/-- One of the actions deletes a parent while records are kept under it. -/
def Stranded (registry : Attach.Registry) (actions : List Action) (k : Kind) (parent : String) :
    Prop :=
  ∃ earlier a later, actions = earlier ++ a :: later ∧
    (after registry earlier).Strands registry a k parent

/-! ## Accounts that match -/

theorem nodup_children
    (h : ∀ name other record record', w.inventory.find? k name = some record →
      w.inventory.find? k other = some record' →
      (k.family registry).reference record = parent →
      (k.family registry).reference record' = parent →
      slotOf? registry k record = slotOf? registry k record' → name = other) :
    (w.inventory.children registry k parent).Nodup := by
  rw [Inventory.children, Table.contents, Multiset.filterMap_coe, Multiset.coe_nodup, List.Nodup,
    List.pairwise_filterMap]
  refine List.Pairwise.imp_of_mem ?_ (w.inventory.table k).ordered
  rintro ⟨name, record⟩ ⟨other, record'⟩ hmem hmem' hlt slot hslot slot' hslot' rfl
  simp only [childSlot?] at hslot hslot'
  split at hslot
  · rename_i href
    split at hslot'
    · rename_i href'
      have hname := h name other record record' (Table.mem_contents.1 hmem)
        (Table.mem_contents.1 hmem') href href' (hslot.trans hslot'.symm)
      rw [hname] at hlt
      exact String.lt_irrefl _ hlt
    · cases hslot'
  · cases hslot

/-- Two children with one slot are the same. -/
theorem eq_of_nodup_children (h : (w.inventory.children registry k parent).Nodup)
    {name other : String} {record record' : k.Record} {slot : Slot}
    (hrecord : w.inventory.find? k name = some record)
    (hrecord' : w.inventory.find? k other = some record')
    (href : (k.family registry).reference record = parent)
    (href' : (k.family registry).reference record' = parent)
    (hslot : slotOf? registry k record = some slot)
    (hslot' : slotOf? registry k record' = some slot) : name = other := by
  by_contra hne
  rw [Inventory.children_drop hrecord href hslot, Multiset.nodup_cons] at h
  apply h.1
  refine Inventory.mem_children.2 ⟨other, record', ?_, href', hslot'⟩
  rw [Inventory.find?_drop_of_ne _ (Ne.symm hne), hrecord']

/-- The children of a parent that is kept are backed exactly if its accounts match. -/
theorem childrenBacked_iff (hup : w.inventory.hasParent k parent = true)
    (hslotted : w.Slotted registry) (hnodup : (w.balance registry k parent).slots.Nodup) :
    w.ChildrenBacked registry k parent ↔ (w.balance registry k parent).Backed := by
  obtain ⟨owner, hk⟩ := Inventory.exists_owner hup
  rw [Inventory.hasParent_eq hk] at hup
  have hslot? {record : k.Record} (href : (k.family registry).reference record = parent) :
      w.inventory.slot? registry k record = slotOf? registry k record :=
    Inventory.slot?_eq hk (by rw [href, hup])
  constructor
  · intro h
    have hchildren : (w.inventory.children registry k parent).Nodup := by
      apply nodup_children
      intro name other record record' hrecord hrecord' href href' heq
      apply h.distinct name other record record' hrecord hrecord' href href'
      rw [hslot? href, hslot? href', heq]
    -- Different children have different slots, so that it is enough that each slot is listed.
    refine (Multiset.le_iff_subset hchildren).2 fun slot hmem => ?_
    obtain ⟨name, record, hrecord, href, hslot⟩ := Inventory.mem_children.1 hmem
    obtain ⟨found, hfound, hlisted⟩ := h.backed name record hrecord href
    rw [hslot? href, hslot] at hfound
    cases hfound
    obtain ⟨found, hfound, husable⟩ := hslotted (hk ▸ rfl) hrecord
    rw [hslot] at hfound
    cases hfound
    exact Multiset.mem_coe.2 (List.mem_filter.2 ⟨hlisted, husable⟩)
  · intro h
    have hchildren : (w.inventory.children registry k parent).Nodup :=
      Multiset.nodup_of_le h hnodup
    constructor
    · intro name record hrecord href
      obtain ⟨slot, hslot, -⟩ := hslotted (hk ▸ rfl) hrecord
      have hchild := Inventory.mem_children.2 ⟨name, record, hrecord, href, hslot⟩
      have hmem := Multiset.mem_of_le h hchild
      exact ⟨slot, (hslot? href).trans hslot, List.mem_of_mem_filter (Multiset.mem_coe.1 hmem)⟩
    · intro name other record record' hrecord hrecord' href href' heq
      obtain ⟨slot, hslot, -⟩ := hslotted (hk ▸ rfl) hrecord
      rw [hslot? href, hslot? href'] at heq
      exact eq_of_nodup_children hchildren hrecord hrecord' href href' hslot (heq ▸ hslot)

/-! ## Runs -/

theorem stranded_concat {actions : List Action} {a : Action} :
    Stranded registry (actions ++ [a]) k parent ↔
      Stranded registry actions k parent ∨
        (after registry actions).Strands registry a k parent := by
  constructor
  · -- The action that strands is the last one or one before it.
    rintro ⟨earlier, b, later, heq, h⟩
    rcases List.eq_nil_or_concat later with rfl | ⟨later, c, rfl⟩
    · obtain ⟨rfl, ⟨⟩⟩ := List.append_inj' heq rfl
      exact .inr h
    · rw [List.concat_eq_append, ← List.cons_append, ← List.append_assoc] at heq
      obtain ⟨rfl, -⟩ := List.append_inj' heq rfl
      exact .inl ⟨earlier, b, later, rfl, h⟩
  · rintro (⟨earlier, b, later, rfl, h⟩ | h)
    · exact ⟨earlier, b, later ++ [a], by simp, h⟩
    · exact ⟨actions, a, [], rfl, h⟩

theorem slotted_after (registry : Attach.Registry) (actions : List Action) :
    (after registry actions).Slotted registry := by
  induction actions using List.reverseRecOn with
  | nil => intro k name record _ h; cases k <;> cases h
  | append_singleton actions a ih =>
    rw [after_concat]
    exact ih.shift (rooted_after registry actions) (shift registry _ a)

/-- An action strands children exactly if the accounts say so. -/
theorem strands_iff {a : Action} (hslotted : w.Slotted registry) :
    w.Strands registry a k parent ↔
      (w.balance registry k parent).Strands ((w.act registry a).balance registry k parent) := by
  have hchildren (hup : w.inventory.hasParent k parent = true) :
      (∃ name record, w.inventory.find? k name = some record ∧
        (k.family registry).reference record = parent) ↔
          w.inventory.children registry k parent ≠ 0 := by
    have hk : k.parent?.isSome := Option.isSome_iff_exists.2 (Inventory.exists_owner hup)
    constructor
    · rintro ⟨name, record, hrecord, href⟩ hzero
      obtain ⟨slot, hslot, -⟩ := hslotted hk hrecord
      have hmem := Inventory.mem_children.2 ⟨name, record, hrecord, href, hslot⟩
      rw [hzero] at hmem
      exact Multiset.notMem_zero slot hmem
    · intro hne
      obtain ⟨slot, hmem⟩ := Multiset.exists_mem_of_ne_zero hne
      obtain ⟨name, record, hrecord, href, -⟩ := Inventory.mem_children.1 hmem
      exact ⟨name, record, hrecord, href⟩
  constructor
  · rintro ⟨hup, hdown, hchild⟩
    exact ⟨hup, hdown, (hchildren hup).1 hchild⟩
  · rintro ⟨hup, hdown, hne⟩
    exact ⟨hup, hdown, (hchildren hup).2 hne⟩

/-- The accounts are kept in every run. -/
theorem kept_after (registry : Attach.Registry) (actions : List Action) (k : Kind)
    (parent : String) : Balance.Kept (Stranded registry actions k parent)
      ((after registry actions).balance registry k parent) := by
  -- By induction on the actions, the last one apart: every action is a move of the ledger.
  induction actions using List.reverseRecOn with
  | nil =>
    have hchildren : (after registry []).inventory.children registry k parent = 0 := by
      cases k <;> rfl
    have hslots : (after registry []).slots parent k = [] := by
      cases k <;> rfl
    have hno : ¬ Stranded registry [] k parent := by
      rintro ⟨earlier, a, later, heq, -⟩
      cases earlier <;> cases heq
    rw [balance, hchildren, hslots]
    exact ⟨Multiset.nodup_zero, fun _ => rfl, fun h => absurd h hno⟩
  | append_singleton actions a ih =>
    have hslotted := slotted_after registry actions
    have hmove := move (rooted_after registry actions) hslotted (shift registry _ a) k parent
    rw [after_concat]
    have hkept := ih.move hmove
    rw [← strands_iff hslotted] at hkept
    rw [stranded_concat]
    exact hkept

/-- After any actions, the records that are kept under a parent have objects of their own exactly if
the parent is not kept or has never been deleted while records were kept under it. -/
theorem after_coherent_iff (registry : Attach.Registry) (actions : List Action) (k : Kind)
    (parent : String) :
    (after registry actions).Coherent registry k parent ↔
      ¬ ((after registry actions).inventory.hasParent k parent = true ∧
        Stranded registry actions k parent) := by
  have hkept := kept_after registry actions k parent
  have hslotted := slotted_after registry actions
  cases hup : (after registry actions).inventory.hasParent k parent with
  | false => simp [Coherent, hup]
  | true =>
    rw [Coherent, hup, childrenBacked_iff hup hslotted hkept.nodup, hkept.backed_iff]
    simp

/-- A subsystem is made with a namespace, deleted, and made again under the same name. -/
def recreation : List Action :=
  let subsystem : Subsystem := { spec := { nqn := "nqn.2022-09.io.spdk:one" } }
  let child : NvmeNamespace := { spec := { volumeNameRef := "Malloc0" } }
  [.take ⟨.subsystem, .create "" subsystem "s1", 0⟩,
   .take ⟨.nvmeNamespace, .create "//storage.bridge.dev/subsystems/s1" child "a", 0⟩,
   .take ⟨.subsystem, .delete { name := "//storage.bridge.dev/subsystems/s1" }, 0⟩,
   .take ⟨.subsystem, .create "" subsystem "s1", 0⟩]

/-- The namespace is still kept under the new subsystem, which has none. -/
theorem not_coherent_recreation :
    ¬ (after {} recreation).Coherent {} .nvmeNamespace "//storage.bridge.dev/subsystems/s1" := by
  intro h
  have hup : (after {} recreation).inventory.hasParent .nvmeNamespace
      "//storage.bridge.dev/subsystems/s1" = true := by
    decide +kernel
  have hkept : ((after {} recreation).inventory.namespaces.find?
      "//storage.bridge.dev/subsystems/s1/namespaces/a").map (·.spec.subsystemNameRef) =
        some "//storage.bridge.dev/subsystems/s1" := by
    decide +kernel
  have hslots : (after {} recreation).slots "//storage.bridge.dev/subsystems/s1"
      .nvmeNamespace = [] := by
    decide +kernel
  obtain ⟨n, hn, href⟩ := Option.map_eq_some_iff.1 hkept
  obtain ⟨slot, -, hslot⟩ := (h hup).backed _ n hn href
  rw [hslots] at hslot
  cases hslot

end World

end StorageControl
