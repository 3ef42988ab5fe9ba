/-
# The row of a subsystem

The engine has a row for every subsystem that is kept. It comes with the numbers of the subsystem, which
nothing changes afterwards. In it are the namespaces, each with the volume that is attached and its
identifiers: none of them is rewritten, and a new one takes a number that is free. So, unless the
subsystem has been deleted while namespaces of it were kept, the entry with the number of a namespace
has what the record of the namespace says.
-/
import StorageControl.Proofs.Coherence
import StorageControl.Proofs.Provenance

namespace StorageControl

open Engine (ListenAddress NamespaceRow Simulation SubsystemRow)
open Engine.Simulation (newNamespaceRow newRow)
open Procedure (Plays plays_append)

/-! ## Records and rows -/

/-- The row has the numbers of the subsystem. -/
structure Subsystem.Numbers (s : Subsystem) (row : SubsystemRow) : Prop where
  serialNumber : row.serialNumber = s.spec.serialNumber
  modelNumber : row.modelNumber = s.spec.modelNumber
  maxNamespaces : row.maxNamespaces = s.spec.maxNamespaces

/-- The entry has the volume and the identifiers of the namespace. -/
structure NvmeNamespace.Fits (n : NvmeNamespace) (row : NamespaceRow) : Prop where
  bdevName : row.bdevName = n.spec.volumeNameRef
  uuid : row.uuid = n.spec.uuid
  nguid : row.nguid = n.spec.nguid
  eui64 : row.eui64 = n.spec.eui64

namespace NvmeNamespace.Fits

variable {n kept : NvmeNamespace} {row : NamespaceRow}

/-- An entry that fits says nothing new. -/
theorem withRow (h : n.Fits row) : Namespaces.withRow n.spec row = n.spec := by
  simp only [Namespaces.withRow, h.bdevName, h.uuid, h.nguid, h.eui64, Option.or_self]

/-- What fits a namespace fits every namespace with the same identity. -/
theorem of_identity (h : kept.Fits row) (hsame : n.SameIdentity kept) : n.Fits row where
  bdevName := h.bdevName.trans hsame.volumeNameRef.symm
  uuid := h.uuid.trans hsame.uuid.symm
  nguid := h.nguid.trans hsame.nguid.symm
  eui64 := h.eui64.trans hsame.eui64.symm

end NvmeNamespace.Fits

namespace World

variable {registry : Attach.Registry} {w w' : World} {name parent : String}

/-- The namespaces that the engine lists for a subsystem that is kept. -/
def attached (w : World) (parent : String) : List NamespaceRow :=
  ((w.row? parent).map (·.namespaces)).getD []

theorem attached_of_row? {row : SubsystemRow} (h : w.row? parent = some row) :
    w.attached parent = row.namespaces := by
  rw [attached, h]
  rfl

theorem slots_eq_map_attached (w : World) (parent : String) :
    w.slots parent .nvmeNamespace = (w.attached parent).map (·.slot) := rfl

/-! ## What an action does to a row -/

/-- How the row of a subsystem that is kept can change. -/
inductive RowShift : Option SubsystemRow → Option SubsystemRow → Prop
  /-- It stays, or there is none. -/
  | stays (row? : Option SubsystemRow) : RowShift row? row?
  /-- Listeners come or go, or namespaces do. A namespace that comes takes a number that is free. -/
  | rewritten {row : SubsystemRow} {addresses : List ListenAddress} {rows : List NamespaceRow}
      (hrows : ∀ n ∈ rows, n ∈ row.namespaces ∨ n.slot ∉ row.namespaces.map (·.slot)) :
      RowShift (some row) (some { row with listenAddresses := addresses, namespaces := rows })
  /-- It comes, and has no namespaces. -/
  | comes {row : SubsystemRow} (hnone : row.namespaces = []) : RowShift none (some row)
  /-- It goes. -/
  | goes {row? : Option SubsystemRow} : RowShift row? none

/-- What is appended under a number that no entry has takes a free number. -/
theorem mem_or_free_of_append {rows : List NamespaceRow} {added : NamespaceRow}
    (hfree : rows.any (·.nsid == added.nsid) = false) {n : NamespaceRow}
    (hn : n ∈ rows ++ [added]) : n ∈ rows ∨ n.slot ∉ rows.map (·.slot) := by
  refine (List.mem_append.1 hn).imp_right fun hlast => ?_
  obtain rfl := List.mem_singleton.1 hlast
  intro hslot
  obtain ⟨other, hother, hsame⟩ := List.mem_map.1 hslot
  have hused := List.any_eq_false.1 hfree other hother
  rw [NamespaceRow.nsid_beq, hsame] at hused
  exact hused (decide_eq_true rfl)

namespace RowShift

theorem of_eq (h : w'.row? name = w.row? name) : RowShift (w.row? name) (w'.row? name) :=
  h ▸ .stays _

/-- The row of one subsystem is rewritten, and the others stay. -/
theorem of_rewrite {row : SubsystemRow} {addresses : List ListenAddress} {rows : List NamespaceRow}
    (hrow : w.row? parent = some row)
    (hrows : ∀ other, w'.row? other = if other = parent then
      some { row with listenAddresses := addresses, namespaces := rows } else w.row? other)
    (hnew : ∀ n ∈ rows, n ∈ row.namespaces ∨ n.slot ∉ row.namespaces.map (·.slot)) :
    RowShift (w.row? name) (w'.row? name) := by
  rw [hrows]
  split
  · rename_i hname
    rw [hname, hrow]
    exact .rewritten hnew
  · exact .stays _

theorem of_gain (h : w.Rooted) {k : Kind} {place : Place} {record : k.Record}
    (hnew : w.inventory.find? k place.name = none)
    (hinventory : w'.inventory = w.inventory.keep k place.name record)
    (hgain : Gain registry w.inventory place w.engine w'.engine k record) :
    RowShift (w.row? name) (w'.row? name) := by
  have hkept (hk : .subsystem ≠ k) : w'.inventory.subsystems = w.inventory.subsystems := by
    rw [hinventory]
    exact Inventory.table_keep_of_ne _ hk _ _
  cases hgain with
  | subsystem hfree _ _ _ _ hnone hsubsystems _ =>
    rw [row?_keep h hinventory hfree hsubsystems]
    split
    · rename_i hname
      have hbefore : w.row? name = none := by
        rw [row?, hname, hnew]
        rfl
      rw [hbefore]
      exact .comes hnone
    · exact .stays _
  | controller _ _ hparent _ hrow _ hsubsystems _ =>
    exact .of_rewrite ((row?_of_find? hparent).trans hrow)
      (row?_rewrite h (hkept (by decide)) hparent hsubsystems) fun _ hmem => .inl hmem
  | nvmeNamespace _ hparent hrow hfree _ hnsid hsubsystems _ =>
    rw [← hnsid] at hfree
    exact .of_rewrite ((row?_of_find? hparent).trans hrow)
      (row?_rewrite h (hkept (by decide)) hparent hsubsystems)
      fun _ hmem => mem_or_free_of_append hfree hmem
  | virtioBlk _ _ _ hsubsystems _ | scsiController _ _ _ hsubsystems _ =>
    exact .of_eq (row?_of_subsystems (hkept (by decide)) hsubsystems name)
  | scsiLun _ _ _ _ _ _ _ hsubsystems _ =>
    exact .of_eq (row?_of_subsystems (hkept (by decide)) hsubsystems name)

theorem of_loss (h : w.Rooted) {k : Kind} {other : String} {record : k.Record}
    (hfind : w.inventory.find? k other = some record)
    (hinventory : w'.inventory = w.inventory.drop k other)
    (hloss : Loss registry w.inventory other w.engine w'.engine k record) :
    RowShift (w.row? name) (w'.row? name) := by
  have hkept (hk : .subsystem ≠ k) : w'.inventory.subsystems = w.inventory.subsystems := by
    rw [hinventory]
    exact Inventory.table_drop_of_ne _ hk _
  cases hloss with
  | subsystem hsubsystems _ =>
    rw [row?_drop h hfind hinventory hsubsystems]
    split
    · exact .goes
    · exact .stays _
  | controller hparent _ hrow _ hsubsystems _ =>
    exact .of_rewrite ((row?_of_find? hparent).trans hrow)
      (row?_rewrite h (hkept (by decide)) hparent hsubsystems) fun _ hmem => .inl hmem
  | nvmeNamespace hparent hrow _ hsubsystems _ =>
    exact .of_rewrite ((row?_of_find? hparent).trans hrow)
      (row?_rewrite h (hkept (by decide)) hparent hsubsystems)
      fun _ hmem => .inl (List.mem_of_mem_filter hmem)
  | virtioBlk hsubsystems _ | scsiController hsubsystems _ | scsiLun _ _ _ _ hsubsystems _ =>
    exact .of_eq (row?_of_subsystems (hkept (by decide)) hsubsystems name)

theorem of_litter (h : w.Rooted) (hinventory : w'.inventory = w.inventory)
    (hlitter : Litter w.engine w'.engine) : RowShift (w.row? name) (w'.row? name) := by
  have hkept : w'.inventory.subsystems = w.inventory.subsystems := by
    rw [hinventory]
  cases hlitter with
  | scsiLun _ _ _ _ hsubsystems _ => exact .of_eq (row?_of_subsystems hkept hsubsystems name)
  | nvmeNamespace hrow hfree _ hsubsystems _ =>
    rcases h.subsystems.owned hrow with rfl | ⟨parent, r, hr, rfl⟩
    · -- No subsystem that is kept has the row of the discovery subsystem.
      refine .of_eq (row?_eq (by rw [hinventory]) fun r hr => ?_)
      rw [hsubsystems, Table.find?_insert_of_ne _ (h.subsystems.backed hr).1]
    · exact .of_rewrite ((row?_of_find? hr).trans hrow) (row?_rewrite h hkept hr hsubsystems)
        fun _ hmem => mem_or_free_of_append hfree hmem

/-- Every action changes the row of a subsystem in one of these ways. -/
theorem of_shift (h : w.Rooted) (hshift : Shift registry w w') (name : String) :
    RowShift (w.row? name) (w'.row? name) := by
  cases hshift with
  | same htables hobjects => exact .of_eq (row?_of_subsystems (htables .subsystem) hobjects.1 name)
  | littered hinventory hlitter => exact of_litter h hinventory hlitter
  | revised _ hkept hrevise hinventory hobjects =>
    exact .of_eq (row?_of_revise hkept hrevise hinventory hobjects name)
  | made _ _ hnew hinventory hgain => exact of_gain h hnew hinventory hgain
  | dropped hkept hinventory hloss => exact of_loss h hkept hinventory hloss

/-- Of the namespaces that are listed afterwards each has been listed before, or its number was
free. -/
theorem attached (h : RowShift (w.row? parent) (w'.row? parent)) {n : NamespaceRow}
    (hn : n ∈ w'.attached parent) :
    n ∈ w.attached parent ∨ n.slot ∉ w.slots parent .nvmeNamespace := by
  rw [slots_eq_map_attached]
  simp only [World.attached] at hn ⊢
  generalize w.row? parent = before at h ⊢
  generalize w'.row? parent = now at h hn
  cases h with
  | stays => exact .inl hn
  | rewritten hrows => exact hrows n hn
  | comes hnone =>
    rw [Option.map_some, Option.getD_some, hnone] at hn
    cases hn
  | goes => cases hn

/-- The numbers in a row stay. -/
theorem numbers {old new : SubsystemRow} (h : RowShift (some old) (some new)) {s : Subsystem}
    (hs : s.Numbers old) : s.Numbers new := by
  cases h with
  | stays => exact hs
  | rewritten => exact ⟨hs.serialNumber, hs.modelNumber, hs.maxNamespaces⟩

end RowShift

/-! ## Where a record comes from -/

/-- A record that is kept after an action has the identity of the one before, or it is made in the
action, which leaves the records of the other kinds alone. -/
theorem origin {a : Action} {k : Kind} {record : k.Record}
    (hafter : (w.act registry a).inventory.find? k name = some record) :
    (∃ kept, w.inventory.find? k name = some kept ∧ SameIdentity k record kept) ∨
      w.inventory.find? k name = none ∧ ∃ place draft t,
        Made registry w.inventory place k draft record t ∧
        Plays Simulation.answer w.engine (t.map .asked) (w.act registry a).engine ∧
        ∀ j, j ≠ k → (w.act registry a).inventory.table j = w.inventory.table j := by
  cases a with
  | version | put => exact .inl ⟨record, hafter, .refl k record⟩
  | take step =>
    obtain ⟨kind, op, bits⟩ := step
    have hturn := turn_of_goes (Procedure.goes_run Simulation.answer
      (w.inventory.perform registry (Uuid.text bits) op) w.engine)
    by_cases hkind : k = kind
    · subst hkind
      rcases hturn.origin hafter with ⟨kept, hkept, hcontinues⟩ |
        ⟨place, draft, -, -, hmade, hnew, -⟩
      · exact .inl ⟨kept, hkept, hcontinues.identity⟩
      · have hplays := Procedure.plays_run Simulation.answer
          (w.inventory.perform registry (Uuid.text bits) op) w.engine
        exact .inr ⟨hnew, place, draft, _, hmade, Procedure.plays_exchanges hplays,
          fun j hj => hturn.table_of_ne hj⟩
    · have hbefore : w.inventory.find? k name = some record := by
        rw [Inventory.find?, ← hturn.table_of_ne hkind]
        exact hafter
      exact .inl ⟨record, hbefore, .refl k record⟩

/-- A record is made under a name in one of the actions, and the name is kept from then on. -/
inductive MadeUnder (registry : Attach.Registry) (k : Kind) (name : String) (made : k.Record) :
    List Action → Prop
  | made {actions : List Action} {a : Action}
      (hnew : (after registry actions).inventory.find? k name = none)
      (hmade : (after registry (actions ++ [a])).inventory.find? k name = some made) :
      MadeUnder registry k name made (actions ++ [a])
  | stays {actions : List Action} {a : Action} (h : MadeUnder registry k name made actions)
      (hkept : ((after registry (actions ++ [a])).inventory.find? k name).isSome) :
      MadeUnder registry k name made (actions ++ [a])

/-- A record that has been kept before the last action was made before it. -/
theorem MadeUnder.of_concat {k : Kind} {made kept : k.Record} {actions : List Action} {a : Action}
    (h : MadeUnder registry k name made (actions ++ [a]))
    (hkept : (after registry actions).inventory.find? k name = some kept) :
    MadeUnder registry k name made actions := by
  generalize hall : actions ++ [a] = all at h
  cases h with
  | made hnew =>
    obtain ⟨rfl, -⟩ := List.append_inj' hall rfl
    rw [hkept] at hnew
    cases hnew
  | stays h =>
    obtain ⟨rfl, -⟩ := List.append_inj' hall rfl
    exact h

/-! ## The numbers of a subsystem -/

/-- A subsystem is made with a row that has its numbers. -/
theorem numbers_of_made {inv : Inventory} {place : Place} {draft r : Subsystem} {t : List Exchange}
    {s s' : Simulation} (hmade : Made registry inv place .subsystem draft r t)
    (hplays : Plays Simulation.answer s (t.map .asked) s') :
    ∃ row, s'.subsystems.find? r.spec.nqn = some row ∧ r.Numbers row := by
  cases hmade with
  | @subsystem _ answer version =>
    let row := newRow (Subsystems.creation draft.spec)
    rcases s.answer_createSubsystem (Subsystems.creation draft.spec) with ⟨-, h⟩ | ⟨e, h⟩
    · obtain ⟨-, hrest⟩ := plays_asked hplays h
      rw [List.append_eq, List.map_append, plays_append] at hrest
      obtain ⟨s₁, hhosting, -, hend⟩ := hrest
      have hengine : s' = s₁ := hend.trans (congrArg Prod.snd s₁.answer_getVersion)
      have hrow : (s.withSubsystem draft.spec.nqn row).subsystems.find? draft.spec.nqn = some row :=
        Table.find?_insert_self _ _ _
      have hnow : s'.subsystems.find? draft.spec.nqn = some
          { row with hosts := row.hosts ++
              (draft.spec.hostnqn.map Simulation.hostEntry).toList } := by
        rw [hengine, (hosts_of_hosting hrow hhosting).1]
        exact Table.find?_insert_self _ _ _
      exact ⟨_, hnow, rfl, rfl, rfl⟩
    · cases (plays_asked hplays h).1

/-- After any actions, the row of a subsystem that is kept has the numbers that the subsystem was made
with, whatever updates there have been. -/
theorem numbers_after {actions : List Action} {r : Subsystem} {row : SubsystemRow}
    (hr : (after registry actions).inventory.find? .subsystem name = some r)
    (hrow : (after registry actions).row? name = some row) :
    ∃ made, MadeUnder registry .subsystem name made actions ∧ made.Numbers row := by
  -- By induction on the actions: the last one makes the subsystem, or leaves the numbers alone.
  induction actions using List.reverseRecOn generalizing r row with
  | nil => cases hr
  | append_singleton actions a ih =>
    have hnow := hr
    rw [after_concat] at hr hrow
    rcases origin hr with ⟨kept, hkept, -⟩ | ⟨hnew, place, draft, t, hmade, hplays, -⟩
    · have hroot := rooted_after registry actions
      obtain ⟨-, old, hold, -⟩ := hroot.subsystems.backed hkept
      rw [← row?_of_find? hkept] at hold
      obtain ⟨made, hmade, hnumbers⟩ := ih hkept hold
      have hshift := RowShift.of_shift hroot (shift registry _ a) name
      rw [hold, hrow] at hshift
      exact ⟨made, .stays hmade (by rw [hnow]; rfl), hshift.numbers hnumbers⟩
    · obtain ⟨first, hfirst, hnumbers⟩ := numbers_of_made hmade hplays
      rw [← row?_of_find? hr, hrow] at hfirst
      cases hfirst
      exact ⟨r, .made hnew hnow, hnumbers⟩

/-! ## The volume of a namespace -/

/-- A namespace that is made gets an entry of its own, which fits it. -/
theorem exists_attached_of_made (h : w.Rooted) {place : Place} {draft n : NvmeNamespace}
    {t : List Exchange} (hmade : Made registry w.inventory place .nvmeNamespace draft n t)
    (hplays : Plays Simulation.answer w.engine (t.map .asked) w'.engine)
    (hkept : w'.inventory.subsystems = w.inventory.subsystems) :
    ∃ added, w'.attached n.spec.subsystemNameRef = w.attached n.spec.subsystemNameRef ++ [added] ∧
      (w.attached n.spec.subsystemNameRef).any (·.nsid == n.spec.hostNsid) = false ∧
      n.Fits added := by
  cases hmade with
  | @nvmeNamespace draft p answer nsid hparent hnsid hpos =>
    let params := (Namespaces.attachment p.spec.nqn draft.spec).params
    rcases w.engine.answer_addNamespace (Namespaces.attachment p.spec.nqn draft.spec) with
      ⟨row, chosen, hrow, hfree, hanswer⟩ | ⟨e, hanswer⟩
    · obtain ⟨rfl, hengine⟩ := plays_asked hplays hanswer
      rw [read?_int32] at hnsid
      cases hnsid
      have hsubsystems : w'.engine.subsystems = w.engine.subsystems.insert p.spec.nqn
          { row with namespaces := row.namespaces ++ [newNamespaceRow nsid params] } :=
        congrArg Simulation.subsystems hengine
      have hbefore : w.row? place.parent = some row := (row?_of_find? hparent).trans hrow
      have hafter := row?_rewrite h hkept hparent hsubsystems place.parent
      rw [if_pos rfl] at hafter
      refine ⟨newNamespaceRow nsid params, ?_, ?_, ⟨rfl, rfl, rfl, rfl⟩⟩
      · rw [attached_of_row? hafter, attached_of_row? hbefore]
      · rw [attached_of_row? hbefore]
        exact hfree
    · obtain ⟨rfl, -⟩ := plays_asked hplays hanswer
      cases hnsid

/-- A record that is kept under a parent has its slot among those that the engine lists, unless
children of the parent have been stranded. -/
theorem mem_slots_after {actions : List Action} {k : Kind} {record : k.Record} {slot : Slot}
    (hno : ¬ Stranded registry actions k parent)
    (hrecord : (after registry actions).inventory.find? k name = some record)
    (href : (k.family registry).reference record = parent)
    (hslot : slotOf? registry k record = some slot) :
    slot ∈ (after registry actions).slots parent k := by
  have hchild := Inventory.mem_children.2 ⟨name, record, hrecord, href, hslot⟩
  have hsettled := (kept_after registry actions k parent).settled hno
  have hlisted : slot ∈ ((after registry actions).balance registry k parent).slots := by
    rw [← hsettled]
    exact hchild
  exact List.mem_of_mem_filter (Multiset.mem_coe.1 hlisted)

/-- After any actions, an entry that the engine lists with the number of a namespace that is kept fits
it, unless the subsystem has been deleted while namespaces of it were kept. -/
theorem fits_after {actions : List Action} {n : NvmeNamespace} {row : NamespaceRow}
    (hno : ¬ Stranded registry actions .nvmeNamespace n.spec.subsystemNameRef)
    (hn : (after registry actions).inventory.find? .nvmeNamespace name = some n)
    (hrow : row ∈ (after registry actions).attached n.spec.subsystemNameRef)
    (hnsid : row.nsid = n.spec.hostNsid) : n.Fits row := by
  -- By induction on the actions: the last one makes the namespace, or there has been one with the
  -- same identity, and then the entry with its number has been there too.
  induction actions using List.reverseRecOn generalizing n with
  | nil => cases hn
  | append_singleton actions a ih =>
    rw [stranded_concat] at hno
    have hno' : ¬ Stranded registry actions .nvmeNamespace n.spec.subsystemNameRef :=
      fun hstranded => hno (.inl hstranded)
    have hroot := rooted_after registry actions
    rw [after_concat] at hn hrow
    rcases origin hn with ⟨kept, hkept, hsame⟩ | ⟨-, place, draft, t, hmade, hplays, htables⟩
    · have href : kept.spec.subsystemNameRef = n.spec.subsystemNameRef :=
        hsame.subsystemNameRef.symm
      rcases (RowShift.of_shift hroot (shift registry _ a) _).attached hrow with hbefore | hfree
      · refine NvmeNamespace.Fits.of_identity ?_ hsame
        rw [← href] at hno' hbefore
        exact ih hno' hkept hbefore (hnsid.trans hsame.hostNsid)
      · have hslot : slotOf? registry .nvmeNamespace kept = some row.slot := by
          rw [slotOf?, NamespaceRow.slot, hnsid, hsame.hostNsid]
        exact absurd (mem_slots_after hno' hkept href hslot) hfree
    · obtain ⟨added, hafter, hfree, hfits⟩ :=
        exists_attached_of_made hroot hmade hplays (htables .subsystem (by decide))
      rw [hafter] at hrow
      rcases List.mem_append.1 hrow with hbefore | hlast
      · exact absurd (beq_iff_eq.2 hnsid) (List.any_eq_false.1 hfree row hbefore)
      · rwa [List.mem_singleton.1 hlast]

end World

end StorageControl
