/-
# Records with objects of their own

A subsystem that is kept stands for one of the engine's subsystems, and a virtio-blk device or a
SCSI controller for one of its vhost controllers. However a world comes about, each of these records
has its object, and the engine has no others but its discovery subsystem.
-/
import StorageControl.Proofs.Revision
import StorageControl.Proofs.World
import Mathlib.Data.Set.Lattice
import Mathlib.Order.BooleanAlgebra.Set
import Mathlib.Order.CompletePartialOrder

namespace StorageControl

open Engine (Simulation SubsystemRow VhostRow)
open Engine.Simulation (SameObjects discoveryNqn)
open Text (Whole)

/-! ## Keys and ids -/

/-- The keys of a table. -/
def Table.keySet {α : Type} (t : Table α) : Set String :=
  {k | t.contains k}

/-- The ids of the records that are kept under the names of a table. -/
def Table.idSet {α : Type} (t : Table α) : Set String :=
  {id | ∃ name r, t.find? name = some r ∧ Name.ownId name = id}

theorem Table.keySet_insert {α : Type} (t : Table α) (k : String) (r : α) :
    (t.insert k r).keySet = t.keySet ∪ {k} := by
  ext j
  by_cases hj : j = k
  · simp [keySet, contains, hj]
  · simp [keySet, contains, hj, find?_insert]

theorem Table.keySet_erase {α : Type} (t : Table α) (k : String) :
    (t.erase k).keySet = t.keySet \ {k} := by
  ext j
  by_cases hj : j = k
  · simp [keySet, contains, hj]
  · simp [keySet, contains, hj, find?_erase]

/-- Putting a value under a key that is there leaves the keys alone. -/
theorem Table.keySet_insert_of_find? {α : Type} {t : Table α} {k : String} {old : α}
    (h : t.find? k = some old) (r : α) : (t.insert k r).keySet = t.keySet := by
  rw [keySet_insert, Set.union_eq_self_of_subset_right]
  rintro _ rfl
  simp [keySet, contains, h]

theorem Table.idSet_insert {α : Type} (t : Table α) (name : String) (r : α) :
    (t.insert name r).idSet = t.idSet ∪ {Name.ownId name} := by
  ext id
  constructor
  · rintro ⟨other, q, hq, rfl⟩
    rw [Table.find?_insert] at hq
    split at hq
    · rename_i hother
      exact .inr (congrArg Name.ownId hother)
    · exact .inl ⟨other, q, hq, rfl⟩
  · rintro (⟨other, q, hq, rfl⟩ | rfl)
    · by_cases hother : other = name
      · exact ⟨name, r, find?_insert_self _ _ _, by rw [hother]⟩
      · exact ⟨other, q, by rw [Table.find?_insert_of_ne _ hother, hq], rfl⟩
    · exact ⟨name, r, find?_insert_self _ _ _, rfl⟩

/-- Putting a record under a name that is there leaves the ids alone. -/
theorem Table.idSet_insert_of_find? {α : Type} {t : Table α} {name : String} {old : α}
    (h : t.find? name = some old) (r : α) : (t.insert name r).idSet = t.idSet := by
  rw [idSet_insert, Set.union_eq_self_of_subset_right]
  rintro _ rfl
  exact ⟨name, old, h, rfl⟩

/-! ## Subsystems -/

/-- The subsystems that are kept agree with those of the engine. -/
structure SubsystemsAgree (kept : Table Subsystem) (rows : Table SubsystemRow) : Prop where
  discovery : (rows.find? discoveryNqn).isSome
  backed : ∀ {name : String} {r : Subsystem}, kept.find? name = some r →
    r.spec.nqn ≠ discoveryNqn ∧ ∃ row, rows.find? r.spec.nqn = some row ∧ FitsSubsystem r.spec row
  owned : ∀ {nqn : String} {row : SubsystemRow}, rows.find? nqn = some row →
    nqn = discoveryNqn ∨ ∃ name r, kept.find? name = some r ∧ r.spec.nqn = nqn
  distinct : ∀ {name other : String} {r q : Subsystem}, kept.find? name = some r →
    kept.find? other = some q → r.spec.nqn = q.spec.nqn → name = other

namespace SubsystemsAgree

variable {kept : Table Subsystem} {rows : Table SubsystemRow} {name : String} {r r' : Subsystem}
  {row row' : SubsystemRow}

theorem start : SubsystemsAgree {} Simulation.start.subsystems where
  discovery := by
    rw [Simulation.start, Table.find?_insert_self]
    rfl
  backed h := by cases h
  owned {nqn row} h := by
    rw [Simulation.start, Table.find?_insert] at h
    split at h
    · rename_i hnqn
      exact .inl hnqn
    · cases h
  distinct h := by cases h

/-- A new subsystem comes with its row. -/
theorem insert (h : SubsystemsAgree kept rows) (hnew : kept.find? name = none)
    (hfree : rows.find? r.spec.nqn = none) (hfits : FitsSubsystem r.spec row) :
    SubsystemsAgree (kept.insert name r) (rows.insert r.spec.nqn row) where
  discovery := by
    rw [Table.find?_insert]
    split
    · rfl
    · exact h.discovery
  backed {other q} hq := by
    rw [Table.find?_insert] at hq
    split at hq
    · cases hq
      refine ⟨?_, row, Table.find?_insert_self _ _ _, hfits⟩
      intro hnqn
      have hdiscovery := h.discovery
      rw [← hnqn, hfree] at hdiscovery
      cases hdiscovery
    · obtain ⟨hne, found, hfound, hfits⟩ := h.backed hq
      refine ⟨hne, found, ?_, hfits⟩
      rw [Table.find?_insert_of_ne, hfound]
      intro hnqn
      rw [hnqn, hfree] at hfound
      cases hfound
  owned {nqn found} hfound := by
    rw [Table.find?_insert] at hfound
    split at hfound
    · rename_i hnqn
      exact .inr ⟨name, r, Table.find?_insert_self _ _ _, hnqn.symm⟩
    · refine (h.owned hfound).imp_right ?_
      rintro ⟨other, q, hq, hnqn⟩
      refine ⟨other, q, ?_, hnqn⟩
      rw [Table.find?_insert_of_ne, hq]
      rintro rfl
      rw [hnew] at hq
      cases hq
  distinct {one other p q} hp hq hnqn := by
    -- The row of the new subsystem was free, so that no other subsystem has its qualified name.
    have hother {other : String} {q : Subsystem} (hq : kept.find? other = some q) :
        q.spec.nqn ≠ r.spec.nqn := by
      intro hnqn
      obtain ⟨-, found, hfound, -⟩ := h.backed hq
      rw [hnqn, hfree] at hfound
      cases hfound
    rw [Table.find?_insert] at hp hq
    split at hp
    · rename_i hone
      split at hq
      · rename_i hsame
        rw [hone, hsame]
      · cases hp
        exact absurd hnqn.symm (hother hq)
    · split at hq
      · cases hq
        exact absurd hnqn (hother hp)
      · exact h.distinct hp hq hnqn

/-- A subsystem goes with its row. -/
theorem erase (h : SubsystemsAgree kept rows) (hkept : kept.find? name = some r) :
    SubsystemsAgree (kept.erase name) (rows.erase r.spec.nqn) where
  discovery := by
    rw [Table.find?_erase_of_ne _ (h.backed hkept).1.symm]
    exact h.discovery
  backed {other q} hq := by
    rw [Table.find?_erase] at hq
    split at hq
    · cases hq
    · rename_i hne
      obtain ⟨hdiscovery, found, hfound, hfits⟩ := h.backed hq
      refine ⟨hdiscovery, found, ?_, hfits⟩
      rw [Table.find?_erase_of_ne, hfound]
      intro hnqn
      exact hne (h.distinct hq hkept hnqn)
  owned {nqn found} hfound := by
    rw [Table.find?_erase] at hfound
    split at hfound
    · cases hfound
    · rename_i hne
      refine (h.owned hfound).imp_right ?_
      rintro ⟨other, q, hq, hnqn⟩
      refine ⟨other, q, ?_, hnqn⟩
      rw [Table.find?_erase_of_ne, hq]
      rintro rfl
      rw [hkept] at hq
      cases hq
      exact hne hnqn.symm
  distinct {one other p q} hp hq hnqn := by
    rw [Table.find?_erase] at hp hq
    split at hp
    · cases hp
    · split at hq
      · cases hq
      · exact h.distinct hp hq hnqn

/-- A revised subsystem has the row of the one before. -/
theorem revise (h : SubsystemsAgree kept rows) (hkept : kept.find? name = some r)
    (hnqn : r'.spec.nqn = r.spec.nqn) (hhostnqn : r'.spec.hostnqn = r.spec.hostnqn) :
    SubsystemsAgree (kept.insert name r') rows := by
  -- Every subsystem has the qualified name and the host of one that was kept under its name.
  have hbefore {other : String} {q : Subsystem} (hq : (kept.insert name r').find? other = some q) :
      ∃ p, kept.find? other = some p ∧ q.spec.nqn = p.spec.nqn ∧
        q.spec.hostnqn = p.spec.hostnqn := by
    rw [Table.find?_insert] at hq
    split at hq
    · rename_i hother
      cases hq
      exact ⟨r, hother ▸ hkept, hnqn, hhostnqn⟩
    · exact ⟨q, hq, rfl, rfl⟩
  refine ⟨h.discovery, fun {other q} hq => ?_, fun {nqn row} hrow => ?_,
    fun {one other p q} hp hq heq => ?_⟩
  · obtain ⟨p, hp, hqnqn, hqhost⟩ := hbefore hq
    obtain ⟨hne, row, hrow, hfits⟩ := h.backed hp
    rw [hqnqn]
    refine ⟨hne, row, hrow, ?_, ?_⟩
    · rw [hqhost, hfits.allowAnyHost]
    · rw [hqhost, hfits.hosts]
  · refine (h.owned hrow).imp_right ?_
    rintro ⟨other, q, hq, hqnqn⟩
    by_cases hother : other = name
    · rw [hother, hkept] at hq
      cases hq
      exact ⟨name, r', Table.find?_insert_self _ _ _, hnqn.trans hqnqn⟩
    · exact ⟨other, q, by rw [Table.find?_insert_of_ne _ hother, hq], hqnqn⟩
  · obtain ⟨p', hp', hpnqn, -⟩ := hbefore hp
    obtain ⟨q', hq', hqnqn, -⟩ := hbefore hq
    exact h.distinct hp' hq' (by rw [← hpnqn, heq, hqnqn])

/-- A row may change as long as it lets in the same hosts. -/
theorem rewrite (h : SubsystemsAgree kept rows) {nqn : String} (hrow : rows.find? nqn = some row)
    (hallowAnyHost : row'.allowAnyHost = row.allowAnyHost) (hhosts : row'.hosts = row.hosts) :
    SubsystemsAgree kept (rows.insert nqn row') where
  discovery := by
    rw [Table.find?_insert]
    split
    · rfl
    · exact h.discovery
  backed {other q} hq := by
    obtain ⟨hne, found, hfound, hfits⟩ := h.backed hq
    refine ⟨hne, ?_⟩
    rw [Table.find?_insert]
    split
    · rename_i hnqn
      rw [hnqn, hrow] at hfound
      cases hfound
      exact ⟨row', rfl, hallowAnyHost.trans hfits.allowAnyHost, hhosts.trans hfits.hosts⟩
    · exact ⟨found, hfound, hfits⟩
  owned {other found} hfound := by
    rw [Table.find?_insert] at hfound
    split at hfound
    · rename_i hnqn
      rw [hnqn]
      exact h.owned hrow
    · exact h.owned hfound
  distinct := h.distinct

/-- The engine has the subsystems that are kept, and its discovery subsystem. -/
theorem nqns_eq (h : SubsystemsAgree kept rows) :
    {nqn | ∃ name r, kept.find? name = some r ∧ r.spec.nqn = nqn} =
      rows.keySet \ {discoveryNqn} := by
  ext nqn
  constructor
  · rintro ⟨name, r, hr, rfl⟩
    obtain ⟨hne, row, hrow, -⟩ := h.backed hr
    refine ⟨?_, hne⟩
    simp [Table.keySet, Table.contains, hrow]
  · rintro ⟨hthere, hne⟩
    obtain ⟨row, hrow⟩ := Option.isSome_iff_exists.1 hthere
    exact (h.owned hrow).resolve_left hne

end SubsystemsAgree

/-! ## vhost controllers -/

/-- Every record is kept under a name of the kind, and the vhost controller with its id has a
backend that fits. -/
structure Backed {α : Type} (k : Kind) (fits : α → Engine.Backend → Prop) (kept : Table α)
    (rows : Table VhostRow) : Prop where
  placed : ∀ {name : String} {r : α}, kept.find? name = some r →
    name = Name.compose k "" (Name.ownId name)
  backed : ∀ {name : String} {r : α}, kept.find? name = some r →
    ∃ row, rows.find? (Name.ownId name) = some row ∧ fits r row.backend

namespace Backed

variable {α : Type} {k : Kind} {fits : α → Engine.Backend → Prop} {kept : Table α}
  {rows : Table VhostRow} {name id : String} {r : α} {row row' : VhostRow}

theorem empty : Backed k fits {} rows where
  placed h := by cases h
  backed h := by cases h

/-- The ids of different records are different. -/
theorem eq_of_ownId (h : Backed k fits kept rows) {other : String} {q : α}
    (hr : kept.find? name = some r) (hq : kept.find? other = some q)
    (hid : Name.ownId name = Name.ownId other) : name = other := by
  rw [h.placed hr, hid, ← h.placed hq]

theorem injOn_ownId (h : Backed k fits kept rows) : Set.InjOn Name.ownId kept.keySet := by
  intro name hname other hother hid
  obtain ⟨r, hr⟩ := Option.isSome_iff_exists.1 hname
  obtain ⟨q, hq⟩ := Option.isSome_iff_exists.1 hother
  exact h.eq_of_ownId hr hq hid

theorem insertRow (h : Backed k fits kept rows) (hfree : rows.find? id = none) :
    Backed k fits kept (rows.insert id row) where
  placed := h.placed
  backed {other q} hq := by
    obtain ⟨found, hfound, hfits⟩ := h.backed hq
    refine ⟨found, ?_, hfits⟩
    rw [Table.find?_insert_of_ne, hfound]
    intro hid
    rw [hid, hfree] at hfound
    cases hfound

theorem eraseRow (h : Backed k fits kept rows) (hid : id ∉ kept.idSet) :
    Backed k fits kept (rows.erase id) where
  placed := h.placed
  backed {other q} hq := by
    obtain ⟨found, hfound, hfits⟩ := h.backed hq
    refine ⟨found, ?_, hfits⟩
    rw [Table.find?_erase_of_ne, hfound]
    intro hother
    exact hid ⟨other, q, hq, hother⟩

/-- A row may change as long as its backend fits the same records. -/
theorem rewrite (h : Backed k fits kept rows) (hrow : rows.find? id = some row)
    (hfits : ∀ q, fits q row.backend → fits q row'.backend) :
    Backed k fits kept (rows.insert id row') where
  placed := h.placed
  backed {other q} hq := by
    obtain ⟨found, hfound, hfound'⟩ := h.backed hq
    rw [Table.find?_insert]
    split
    · rename_i hid
      rw [hid, hrow] at hfound
      cases hfound
      exact ⟨row', rfl, hfits q hfound'⟩
    · exact ⟨found, hfound, hfound'⟩

theorem insert (h : Backed k fits kept rows) (hname : name = Name.compose k "" (Name.ownId name))
    (hrow : rows.find? (Name.ownId name) = some row) (hfits : fits r row.backend) :
    Backed k fits (kept.insert name r) rows where
  placed {other q} hq := by
    rw [Table.find?_insert] at hq
    split at hq
    · rename_i hother
      rw [hother]
      exact hname
    · exact h.placed hq
  backed {other q} hq := by
    rw [Table.find?_insert] at hq
    split at hq
    · rename_i hother
      cases hq
      rw [hother]
      exact ⟨row, hrow, hfits⟩
    · exact h.backed hq

theorem erase (h : Backed k fits kept rows) : Backed k fits (kept.erase name) rows where
  placed {other q} hq := by
    rw [Table.find?_erase] at hq
    split at hq
    · cases hq
    · exact h.placed hq
  backed {other q} hq := by
    rw [Table.find?_erase] at hq
    split at hq
    · cases hq
    · exact h.backed hq

/-- When a record is dropped, its id is gone and the others stay. -/
theorem idSet_erase (h : Backed k fits kept rows) (hkept : kept.find? name = some r) :
    (kept.erase name).idSet = kept.idSet \ {Name.ownId name} := by
  ext id
  constructor
  · rintro ⟨other, q, hq, rfl⟩
    rw [Table.find?_erase] at hq
    split at hq
    · cases hq
    · rename_i hne
      exact ⟨⟨other, q, hq, rfl⟩, fun hid => hne (h.eq_of_ownId hq hkept hid)⟩
  · rintro ⟨⟨other, q, hq, rfl⟩, hid⟩
    refine ⟨other, q, ?_, rfl⟩
    rw [Table.find?_erase_of_ne, hq]
    rintro rfl
    exact hid rfl

end Backed

/-- The backend is the volume of the device. -/
def VirtioBlk.Fits (d : VirtioBlk) (backend : Engine.Backend) : Prop :=
  backend.block.map (·.bdev) = some d.volumeNameRef ∧ backend.scsi = none

/-- The backend is a SCSI bus. -/
def ScsiController.Fits (_ : ScsiController) (backend : Engine.Backend) : Prop :=
  backend.scsi.isSome ∧ backend.block = none

/-- The virtio-blk devices and SCSI controllers that are kept agree with the vhost controllers of
the engine. -/
structure VhostsAgree (blks : Table VirtioBlk) (controllers : Table ScsiController)
    (rows : Table VhostRow) : Prop where
  blksBacked : Backed .virtioBlk VirtioBlk.Fits blks rows
  controllersBacked : Backed .scsiController ScsiController.Fits controllers rows
  keys : rows.keySet = blks.idSet ∪ controllers.idSet

namespace VhostsAgree

variable {blks : Table VirtioBlk} {controllers : Table ScsiController} {rows : Table VhostRow}
  {name id : String} {d d' : VirtioBlk} {c c' : ScsiController} {row row' : VhostRow}

theorem start : VhostsAgree {} {} {} where
  blksBacked := .empty
  controllersBacked := .empty
  keys := by
    ext id
    constructor
    · intro h
      cases h
    · rintro (⟨_, _, h, -⟩ | ⟨_, _, h, -⟩) <;> cases h

/-- No id is that of a device and of a controller. -/
theorem disjoint (h : VhostsAgree blks controllers rows) :
    Disjoint blks.idSet controllers.idSet := by
  rw [Set.disjoint_left]
  rintro _ ⟨name, d, hd, rfl⟩ ⟨other, c, hc, hid⟩
  obtain ⟨row, hrow, -, hnone⟩ := h.blksBacked.backed hd
  obtain ⟨row', hrow', hsome, -⟩ := h.controllersBacked.backed hc
  rw [hid, hrow] at hrow'
  cases hrow'
  rw [hnone] at hsome
  cases hsome

theorem insertBlk (h : VhostsAgree blks controllers rows)
    (hname : name = Name.compose .virtioBlk "" (Name.ownId name))
    (hfree : rows.find? (Name.ownId name) = none) (hfits : d.Fits row.backend) :
    VhostsAgree (blks.insert name d) controllers (rows.insert (Name.ownId name) row) where
  blksBacked := (h.blksBacked.insertRow hfree).insert hname (Table.find?_insert_self _ _ _) hfits
  controllersBacked := h.controllersBacked.insertRow hfree
  keys := by
    rw [Table.keySet_insert, Table.idSet_insert, h.keys, Set.union_right_comm]

theorem insertController (h : VhostsAgree blks controllers rows)
    (hname : name = Name.compose .scsiController "" (Name.ownId name))
    (hfree : rows.find? (Name.ownId name) = none) (hfits : c.Fits row.backend) :
    VhostsAgree blks (controllers.insert name c) (rows.insert (Name.ownId name) row) where
  blksBacked := h.blksBacked.insertRow hfree
  controllersBacked :=
    (h.controllersBacked.insertRow hfree).insert hname (Table.find?_insert_self _ _ _) hfits
  keys := by
    rw [Table.keySet_insert, Table.idSet_insert, h.keys, Set.union_assoc]

theorem eraseBlk (h : VhostsAgree blks controllers rows) (hkept : blks.find? name = some d) :
    VhostsAgree (blks.erase name) controllers (rows.erase (Name.ownId name)) := by
  have hgone : Name.ownId name ∉ (blks.erase name).idSet := by
    rw [h.blksBacked.idSet_erase hkept]
    exact fun hid => hid.2 rfl
  have hother : Name.ownId name ∉ controllers.idSet :=
    Set.disjoint_left.1 h.disjoint ⟨name, d, hkept, rfl⟩
  refine ⟨h.blksBacked.erase.eraseRow hgone, h.controllersBacked.eraseRow hother, ?_⟩
  rw [Table.keySet_erase, h.keys, h.blksBacked.idSet_erase hkept, Set.union_sdiff_distrib,
    Set.sdiff_singleton_eq_self hother]

theorem eraseController (h : VhostsAgree blks controllers rows)
    (hkept : controllers.find? name = some c) :
    VhostsAgree blks (controllers.erase name) (rows.erase (Name.ownId name)) := by
  have hgone : Name.ownId name ∉ (controllers.erase name).idSet := by
    rw [h.controllersBacked.idSet_erase hkept]
    exact fun hid => hid.2 rfl
  have hother : Name.ownId name ∉ blks.idSet :=
    Set.disjoint_right.1 h.disjoint ⟨name, c, hkept, rfl⟩
  refine ⟨h.blksBacked.eraseRow hother, h.controllersBacked.erase.eraseRow hgone, ?_⟩
  rw [Table.keySet_erase, h.keys, h.controllersBacked.idSet_erase hkept, Set.union_sdiff_distrib,
    Set.sdiff_singleton_eq_self hother]

theorem reviseBlk (h : VhostsAgree blks controllers rows) (hkept : blks.find? name = some d)
    (hvolume : d'.volumeNameRef = d.volumeNameRef) :
    VhostsAgree (blks.insert name d') controllers rows := by
  obtain ⟨row, hrow, hfits⟩ := h.blksBacked.backed hkept
  refine ⟨h.blksBacked.insert (h.blksBacked.placed hkept) hrow ?_, h.controllersBacked, ?_⟩
  · rw [VirtioBlk.Fits, hvolume]
    exact hfits
  · rw [Table.idSet_insert_of_find? hkept, h.keys]

theorem reviseController (h : VhostsAgree blks controllers rows)
    (hkept : controllers.find? name = some c) :
    VhostsAgree blks (controllers.insert name c') rows := by
  obtain ⟨row, hrow, hfits⟩ := h.controllersBacked.backed hkept
  have hbacked := h.controllersBacked.insert (r := c') (h.controllersBacked.placed hkept) hrow hfits
  refine ⟨h.blksBacked, hbacked, ?_⟩
  rw [Table.idSet_insert_of_find? hkept, h.keys]

/-- The targets on a bus may change. -/
theorem rewrite (h : VhostsAgree blks controllers rows) {targets targets' : List Engine.TargetRow}
    (hrow : rows.find? id = some row) (htargets : row.backend.scsi = some targets) :
    VhostsAgree blks controllers
      (rows.insert id { row with backend := { row.backend with scsi := some targets' } }) where
  blksBacked := by
    refine h.blksBacked.rewrite hrow fun d hd => ?_
    rw [hd.2] at htargets
    cases htargets
  controllersBacked := h.controllersBacked.rewrite hrow fun c hc => ⟨rfl, hc.2⟩
  keys := by
    rw [Table.keySet_insert_of_find? hrow, h.keys]

end VhostsAgree

/-! ## Worlds -/

namespace World

/-- The records with objects of their own agree with the engine. -/
structure Rooted (w : World) : Prop where
  subsystems : SubsystemsAgree w.inventory.subsystems w.engine.subsystems
  vhosts : VhostsAgree w.inventory.virtioBlks w.inventory.scsiControllers w.engine.vhosts

variable {registry : Attach.Registry} {w w' : World}

/-- A new device has its place under its id. -/
theorem place_eq {k : Kind} {place : Place} (hk : k.parent? = none)
    (hplace : place = Place.under k place.parent place.id) (hid : Whole '/' place.id) :
    place.name = Name.compose k "" place.id ∧ Name.ownId place.name = place.id := by
  have hname : place.name = Name.compose k "" place.id := by
    rw [hplace]
    simp [Place.under, Place.parentId, hk]
  refine ⟨hname, ?_⟩
  rw [hname, Name.ownId_compose k (by simp [Whole]) hid]

/-- Only the subsystems change. -/
theorem Rooted.of_subsystems (h : w.Rooted) {rows : Table SubsystemRow}
    (hblks : w'.inventory.virtioBlks = w.inventory.virtioBlks)
    (hcontrollers : w'.inventory.scsiControllers = w.inventory.scsiControllers)
    (hvhosts : w'.engine.vhosts = w.engine.vhosts) (hrows : w'.engine.subsystems = rows)
    (hagree : SubsystemsAgree w'.inventory.subsystems rows) : w'.Rooted where
  subsystems := by
    rw [hrows]
    exact hagree
  vhosts := by
    rw [hblks, hcontrollers, hvhosts]
    exact h.vhosts

/-- Only the vhost controllers change. -/
theorem Rooted.of_vhosts (h : w.Rooted) {rows : Table VhostRow}
    (hkept : w'.inventory.subsystems = w.inventory.subsystems)
    (hsubsystems : w'.engine.subsystems = w.engine.subsystems) (hrows : w'.engine.vhosts = rows)
    (hagree : VhostsAgree w'.inventory.virtioBlks w'.inventory.scsiControllers rows) :
    w'.Rooted where
  subsystems := by
    rw [hkept, hsubsystems]
    exact h.subsystems
  vhosts := by
    rw [hrows]
    exact hagree

theorem Rooted.made {k : Kind} {place : Place} {record : k.Record} (h : w.Rooted)
    (hplace : place = Place.under k place.parent place.id) (hid : Whole '/' place.id)
    (hnew : w.inventory.find? k place.name = none)
    (hinventory : w'.inventory = w.inventory.keep k place.name record)
    (hgain : Gain registry w.inventory place w.engine w'.engine k record) : w'.Rooted := by
  obtain ⟨inv, s⟩ := w'
  cases hinventory
  cases hgain with
  | subsystem hfree hfits _ _ _ _ hsubsystems hvhosts =>
    exact h.of_subsystems rfl rfl hvhosts hsubsystems (h.subsystems.insert hnew hfree hfits)
  | controller _ _ _ _ hrow _ hsubsystems hvhosts
  | nvmeNamespace _ _ hrow _ _ _ hsubsystems hvhosts =>
    exact h.of_subsystems rfl rfl hvhosts hsubsystems (h.subsystems.rewrite hrow rfl rfl)
  | @virtioBlk d row hfree _ hbackend hsubsystems hvhosts =>
    obtain ⟨hname, hown⟩ := place_eq rfl hplace hid
    rw [← hown] at hname hfree hvhosts
    have hfits : d.Fits row.backend := by
      rw [hbackend]
      exact ⟨rfl, rfl⟩
    exact h.of_vhosts rfl hsubsystems hvhosts (h.vhosts.insertBlk hname hfree hfits)
  | @scsiController c row hfree _ hbackend hsubsystems hvhosts =>
    obtain ⟨hname, hown⟩ := place_eq rfl hplace hid
    rw [← hown] at hname hfree hvhosts
    have hfits : c.Fits row.backend := by
      rw [hbackend]
      exact ⟨rfl, rfl⟩
    exact h.of_vhosts rfl hsubsystems hvhosts (h.vhosts.insertController hname hfree hfits)
  | scsiLun _ _ hrow htargets _ _ _ hsubsystems hvhosts =>
    exact h.of_vhosts rfl hsubsystems hvhosts (h.vhosts.rewrite hrow htargets)

theorem Rooted.dropped {k : Kind} {name : String} {record : k.Record} (h : w.Rooted)
    (hkept : w.inventory.find? k name = some record)
    (hinventory : w'.inventory = w.inventory.drop k name)
    (hloss : Loss registry w.inventory name w.engine w'.engine k record) : w'.Rooted := by
  obtain ⟨inv, s⟩ := w'
  cases hinventory
  cases hloss with
  | subsystem hsubsystems hvhosts =>
    exact h.of_subsystems rfl rfl hvhosts hsubsystems (h.subsystems.erase hkept)
  | controller _ _ hrow _ hsubsystems hvhosts | nvmeNamespace _ hrow _ hsubsystems hvhosts =>
    exact h.of_subsystems rfl rfl hvhosts hsubsystems (h.subsystems.rewrite hrow rfl rfl)
  | virtioBlk hsubsystems hvhosts =>
    exact h.of_vhosts rfl hsubsystems hvhosts (h.vhosts.eraseBlk hkept)
  | scsiController hsubsystems hvhosts =>
    exact h.of_vhosts rfl hsubsystems hvhosts (h.vhosts.eraseController hkept)
  | scsiLun _ hrow htargets _ hsubsystems hvhosts =>
    exact h.of_vhosts rfl hsubsystems hvhosts (h.vhosts.rewrite hrow htargets)

theorem Rooted.revised {k : Kind} {name : String} {kept revised : k.Record}
    {request : UpdateRequest k.Record} (h : w.Rooted)
    (hkept : w.inventory.find? k name = some kept)
    (hrevise : Inventory.revise kept request = .ok revised)
    (hinventory : w'.inventory = w.inventory.keep k name revised)
    (hobjects : SameObjects w.engine w'.engine) : w'.Rooted := by
  obtain ⟨inv, s⟩ := w'
  cases hinventory
  have hsame := Inventory.sameIdentity_of_revise hrevise
  refine ⟨?_, ?_⟩
  · rw [hobjects.1]
    cases k with
    | subsystem => exact h.subsystems.revise hkept hsame.nqn hsame.hostnqn
    | _ => exact h.subsystems
  · rw [hobjects.2]
    cases k with
    | virtioBlk => exact h.vhosts.reviseBlk hkept hsame.volumeNameRef
    | scsiController => exact h.vhosts.reviseController hkept
    | _ => exact h.vhosts

/-- A number that stays behind is not one of a root. -/
theorem Rooted.littered (h : w.Rooted) (hinventory : w'.inventory = w.inventory)
    (hlitter : Litter w.engine w'.engine) : w'.Rooted := by
  obtain ⟨inv, s⟩ := w'
  cases hinventory
  cases hlitter with
  | nvmeNamespace hrow _ _ hsubsystems hvhosts =>
    exact h.of_subsystems rfl rfl hvhosts hsubsystems (h.subsystems.rewrite hrow rfl rfl)
  | scsiLun hrow htargets _ _ hsubsystems hvhosts =>
    exact h.of_vhosts rfl hsubsystems hvhosts (h.vhosts.rewrite hrow htargets)

/-- Every action leaves the roots in agreement. -/
theorem Rooted.act (h : w.Rooted) (a : Action) : (w.act registry a).Rooted := by
  cases w.shift registry a with
  | same htables hobjects =>
    have hsubsystems := htables .subsystem
    have hblks := htables .virtioBlk
    have hcontrollers := htables .scsiController
    simp only [Inventory.table] at hsubsystems hblks hcontrollers
    refine ⟨?_, ?_⟩
    · rw [hsubsystems, hobjects.1]
      exact h.subsystems
    · rw [hblks, hcontrollers, hobjects.2]
      exact h.vhosts
  | littered hinventory hlitter => exact h.littered hinventory hlitter
  | revised _ hkept hrevise hinventory hobjects => exact h.revised hkept hrevise hinventory hobjects
  | made hplace hid hnew hinventory hgain => exact h.made hplace hid hnew hinventory hgain
  | dropped hkept hinventory hloss => exact h.dropped hkept hinventory hloss

/-- The roots are in agreement after any actions. -/
theorem rooted_after (registry : Attach.Registry) (actions : List Action) :
    (after registry actions).Rooted :=
  invariant ⟨.start, .start⟩ (fun _ a h => h.act a) actions

/-- The records with objects of their own are, one by one, those that the engine has objects for. -/
structure RootsMatch (w : World) : Prop where
  /-- The engine has the subsystems that are kept, and its discovery subsystem. -/
  subsystems : {nqn | ∃ name r, w.inventory.find? .subsystem name = some r ∧ r.spec.nqn = nqn} =
    w.engine.subsystems.keySet \ {discoveryNqn}
  /-- A subsystem of the engine lets in the host of the subsystem that is kept. -/
  hosts : ∀ name r, w.inventory.find? .subsystem name = some r →
    ∃ row, w.engine.subsystems.find? r.spec.nqn = some row ∧ FitsSubsystem r.spec row
  /-- No two subsystems share a qualified name. -/
  nqns : ∀ name other r q, w.inventory.find? .subsystem name = some r →
    w.inventory.find? .subsystem other = some q → r.spec.nqn = q.spec.nqn → name = other
  /-- The engine has a vhost controller for every device and every SCSI controller, and no other. -/
  vhosts : w.engine.vhosts.keySet =
    w.inventory.virtioBlks.idSet ∪ w.inventory.scsiControllers.idSet
  /-- No two of these share an id. -/
  disjoint : Disjoint w.inventory.virtioBlks.idSet w.inventory.scsiControllers.idSet
  blkIds : Set.InjOn Name.ownId w.inventory.virtioBlks.keySet
  controllerIds : Set.InjOn Name.ownId w.inventory.scsiControllers.keySet
  /-- The vhost controller of a device has the device's volume, and that of a SCSI controller a
  bus. -/
  blks : ∀ name d, w.inventory.find? .virtioBlk name = some d →
    ∃ row, w.engine.vhosts.find? (Name.ownId name) = some row ∧ d.Fits row.backend
  controllers : ∀ name c, w.inventory.find? .scsiController name = some c →
    ∃ row, w.engine.vhosts.find? (Name.ownId name) = some row ∧ c.Fits row.backend

/-- After any actions, failed ones among them, the records with objects of their own match the
objects of the engine. -/
theorem after_rootsMatch (registry : Attach.Registry) (actions : List Action) :
    (after registry actions).RootsMatch := by
  have h := rooted_after registry actions
  constructor
  · exact h.subsystems.nqns_eq
  · exact fun name r hr => (h.subsystems.backed hr).2
  · exact fun name other r q hr hq hnqn => h.subsystems.distinct hr hq hnqn
  · exact h.vhosts.keys
  · exact h.vhosts.disjoint
  · exact h.vhosts.blksBacked.injOn_ownId
  · exact h.vhosts.controllersBacked.injOn_ownId
  · exact fun name d hd => h.vhosts.blksBacked.backed hd
  · exact fun name c hc => h.vhosts.controllersBacked.backed hc

end World

end StorageControl
