/-
# Creations that do not meddle with one another

What the engine holds is kept in cells: a row for each qualified name, the limits of each volume and
a row for each vhost id. A creation of a record with an object of its own reads and writes a few of
these cells, which can be told beforehand from the request, and it reads the volumes, which no
creation changes. Two creations with different cells and different names come to the same whichever
of them is first.
-/
import StorageControl.Inventory.World
import StorageControl.Proofs.Attach
import StorageControl.Proofs.Operation
import StorageControl.Proofs.Simulation

namespace StorageControl

open Engine (Answer Call Method Script Simulation)
open Engine.Script (Asks)

/-! ## Cells -/

namespace Engine.Simulation

variable {α β : Type}

/-- A place in the engine where there can be a row, or limits. -/
inductive Cell where
  | subsystem (nqn : String)
  | limits (volume : String)
  | vhost (id : String)
deriving DecidableEq

/-- What is written into a cell. A row can be taken out of it. -/
inductive Write where
  | subsystem (nqn : String) (row : Option SubsystemRow)
  | limits (volume : String) (limits : VolumeLimits)
  | vhost (id : String) (row : VhostRow)

/-- The cell that is written into. -/
def Write.cell : Write → Cell
  | .subsystem nqn _ => .subsystem nqn
  | .limits volume _ => .limits volume
  | .vhost id _ => .vhost id

/-- The engine after something has been written. -/
def write (s : Simulation) : Write → Simulation
  | .subsystem nqn (some row) => { s with subsystems := s.subsystems.insert nqn row }
  | .subsystem nqn none => { s with subsystems := s.subsystems.erase nqn }
  | .limits volume limits => { s with limits := s.limits.insert volume limits }
  | .vhost id row => { s with vhosts := s.vhosts.insert id row }

/-- Two engines hold the same in a cell. -/
def SameAt (s s' : Simulation) : Cell → Prop
  | .subsystem nqn => s'.subsystems.find? nqn = s.subsystems.find? nqn
  | .limits volume => s'.limits.find? volume = s.limits.find? volume
  | .vhost id => s'.vhosts.find? id = s.vhosts.find? id

theorem SameAt.refl (s : Simulation) (c : Cell) : SameAt s s c := by
  cases c <;> rfl

theorem SameAt.symm {s s' : Simulation} {c : Cell} (h : SameAt s s' c) : SameAt s' s c := by
  cases c <;> exact Eq.symm h

theorem SameAt.trans {s₁ s₂ s₃ : Simulation} {c : Cell} (h₁ : SameAt s₁ s₂ c)
    (h₂ : SameAt s₂ s₃ c) : SameAt s₁ s₃ c := by
  cases c <;> exact Eq.trans h₂ h₁

/-- Engines that hold the same volumes, and the same in every cell, are the same. -/
theorem eq_of_sameAt {s s' : Simulation} (hvolumes : s'.volumes = s.volumes)
    (h : ∀ c, SameAt s s' c) : s' = s := by
  have hsubsystems : s'.subsystems = s.subsystems := Table.ext fun nqn => h (.subsystem nqn)
  have hlimits : s'.limits = s.limits := Table.ext fun volume => h (.limits volume)
  have hvhosts : s'.vhosts = s.vhosts := Table.ext fun id => h (.vhost id)
  cases s
  cases s'
  simp_all

theorem volumes_write (s : Simulation) (w : Write) : (s.write w).volumes = s.volumes := by
  cases w with
  | subsystem nqn row => cases row <;> rfl
  | limits | vhost => rfl

/-- Writing into a cell leaves the others alone. -/
theorem sameAt_write_of_ne (s : Simulation) {w : Write} {c : Cell} (h : c ≠ w.cell) :
    SameAt s (s.write w) c := by
  cases w with
  | subsystem nqn row =>
    cases c with
    | subsystem other =>
      have hne : other ≠ nqn := fun he => h (congrArg _ he)
      cases row with
      | some row => exact Table.find?_insert_of_ne _ hne _
      | none => exact Table.find?_erase_of_ne _ hne
    | limits | vhost => cases row <;> rfl
  | limits volume l =>
    cases c with
    | limits other => exact Table.find?_insert_of_ne _ (fun he => h (congrArg _ he)) _
    | subsystem | vhost => rfl
  | vhost id row =>
    cases c with
    | vhost other => exact Table.find?_insert_of_ne _ (fun he => h (congrArg _ he)) _
    | subsystem | limits => rfl

/-- In the cell that is written into there is the same afterwards, whatever was there. -/
theorem sameAt_write_cell (s s' : Simulation) (w : Write) :
    SameAt (s.write w) (s'.write w) w.cell := by
  cases w with
  | subsystem nqn row => cases row <;> simp [SameAt, write, Write.cell]
  | limits | vhost => simp [SameAt, write, Write.cell]

/-- Engines with the same in a cell have the same there when the same is written into both. -/
theorem SameAt.write {s s' : Simulation} {c : Cell} (h : SameAt s s' c) (w : Write) :
    SameAt (s.write w) (s'.write w) c := by
  by_cases hc : c = w.cell
  · rw [hc]
    exact sameAt_write_cell s s' w
  · exact (sameAt_write_of_ne s hc).symm.trans (h.trans (sameAt_write_of_ne s' hc))

/-! ## What is confined to some cells -/

/-- Two engines hold the same volumes, and the same in some cells. -/
structure AgreeOn (C : List Cell) (s s' : Simulation) : Prop where
  volumes : s'.volumes = s.volumes
  cells : ∀ c ∈ C, SameAt s s' c

theorem AgreeOn.write {C : List Cell} {s s' : Simulation} (h : AgreeOn C s s') (w : Write) :
    AgreeOn C (s.write w) (s'.write w) where
  volumes := by rw [volumes_write, volumes_write, h.volumes]
  cells c hc := (h.cells c hc).write w

/-- Something is done to an engine that depends on the volumes and some cells only, and changes no
other cells. -/
structure Confined (C : List Cell) (f : Simulation → α × Simulation) : Prop where
  volumes : ∀ s, (f s).2.volumes = s.volumes
  outside : ∀ s, ∀ c ∉ C, SameAt s (f s).2 c
  inside : ∀ s s', AgreeOn C s s' → (f s').1 = (f s).1 ∧ AgreeOn C (f s).2 (f s').2

namespace Confined

variable {C D : List Cell}

theorem pure (a : α) : Confined C fun s => (a, s) where
  volumes _ := rfl
  outside s c _ := .refl s c
  inside _ _ h := ⟨rfl, h⟩

/-- What is confined to some cells is confined to more cells. -/
theorem mono {f : Simulation → α × Simulation} (h : Confined C f) (hsub : ∀ c ∈ C, c ∈ D) :
    Confined D f where
  volumes := h.volumes
  outside s c hc := h.outside s c fun hmem => hc (hsub c hmem)
  inside s s' hagree := by
    obtain ⟨hanswer, hafter⟩ :=
      h.inside s s' ⟨hagree.volumes, fun c hc => hagree.cells c (hsub c hc)⟩
    refine ⟨hanswer, hafter.volumes, fun c hc => ?_⟩
    by_cases hmem : c ∈ C
    · exact hafter.cells c hmem
    · exact (h.outside s c hmem).symm.trans ((hagree.cells c hc).trans (h.outside s' c hmem))

/-- What is confined twice in a row is confined. -/
theorem bind {f : Simulation → α × Simulation} {g : α → Simulation → β × Simulation}
    (hf : Confined C f) (hg : ∀ a, Confined C (g a)) :
    Confined C fun s => g (f s).1 (f s).2 where
  volumes s := ((hg _).volumes _).trans (hf.volumes s)
  outside s c hc := (hf.outside s c hc).trans ((hg _).outside _ c hc)
  inside s s' h := by
    obtain ⟨hanswer, hafter⟩ := hf.inside s s' h
    rw [hanswer]
    exact (hg _).inside _ _ hafter

/-- What is confined to different cells can be done in either order. -/
theorem commute {f : Simulation → α × Simulation} {g : Simulation → β × Simulation}
    (hf : Confined C f) (hg : Confined D g) (hdisjoint : ∀ c ∈ C, c ∉ D) (s : Simulation) :
    (f (g s).2).1 = (f s).1 ∧ (g (f s).2).1 = (g s).1 ∧ (g (f s).2).2 = (f (g s).2).2 := by
  have hfirst : AgreeOn C s (g s).2 :=
    ⟨hg.volumes s, fun c hc => hg.outside s c (hdisjoint c hc)⟩
  have hsecond : AgreeOn D s (f s).2 :=
    ⟨hf.volumes s, fun c hc => hf.outside s c fun hmem => hdisjoint c hmem hc⟩
  obtain ⟨hanswer, hafter⟩ := hf.inside _ _ hfirst
  obtain ⟨hanswer', hafter'⟩ := hg.inside _ _ hsecond
  refine ⟨hanswer, hanswer', eq_of_sameAt ?_ fun c => ?_⟩
  · rw [hg.volumes, hf.volumes, hf.volumes, hg.volumes]
  · by_cases hc : c ∈ C
    · -- The second one leaves the cells of the first one as it has made them.
      exact (hafter.cells c hc).symm.trans (hg.outside _ c (hdisjoint c hc))
    · have hsame : SameAt (g s).2 (g (f s).2).2 c := by
        by_cases hd : c ∈ D
        · exact hafter'.cells c hd
        · exact (hg.outside s c hd).symm.trans
            ((hf.outside s c hc).trans (hg.outside _ c hd))
      exact (hf.outside _ c hc).symm.trans hsame

/-- A call that writes at most into some cells, and what it answers and writes depends on no others,
is confined to them. -/
theorem of_writes {call : Call}
    (h : ∀ s s', AgreeOn C s s' →
      (∃ answer, s.answer call = (answer, s) ∧ s'.answer call = (answer, s')) ∨
        ∃ answer w, w.cell ∈ C ∧ s.answer call = (answer, s.write w) ∧
          s'.answer call = (answer, s'.write w)) : Confined C (·.answer call) where
  volumes s := s.volumes_answer call
  outside s c hc := by
    rcases h s s ⟨rfl, fun c _ => .refl s c⟩ with ⟨_, hs, -⟩ | ⟨_, w, hw, hs, -⟩
    · simp only [hs]
      exact .refl s c
    · simp only [hs]
      refine sameAt_write_of_ne s ?_
      rintro rfl
      exact hc hw
  inside s s' hagree := by
    rcases h s s' hagree with ⟨_, hs, hs'⟩ | ⟨_, w, -, hs, hs'⟩
    · simp only [hs, hs']
      exact ⟨trivial, hagree⟩
    · simp only [hs, hs']
      exact ⟨trivial, hagree.write w⟩

/-- A method that is granted when it is carried out is confined to the cells that it writes into, if
nothing else matters to it. -/
theorem of_granting {m : Method} {c : Codec α} (hc : c.Lawful)
    {f : Simulation → α → Except Fault Simulation}
    (hm : ∀ s params, respond s params m = do return granting (← f s (← receive c params))) {p : α}
    (h : ∀ s s', AgreeOn C s s' → (∃ e, f s p = .error e ∧ f s' p = .error e) ∨
      ∃ w, w.cell ∈ C ∧ f s p = .ok (s.write w) ∧ f s' p = .ok (s'.write w)) :
    Confined C (·.answer (m.on c p)) := by
  refine of_writes fun s s' hagree => ?_
  rw [answer_granting hc f hm, answer_granting hc f hm]
  rcases h s s' hagree with ⟨e, hs, hs'⟩ | ⟨w, hw, hs, hs'⟩
  · rw [hs, hs']
    exact .inl ⟨_, rfl, rfl⟩
  · rw [hs, hs']
    exact .inr ⟨_, w, hw, rfl, rfl⟩

end Confined

/-! ## Calls -/

theorem confined_createSubsystem (p : CreateSubsystem) :
    Confined [.subsystem p.nqn] (·.answer (Method.createSubsystem.on CreateSubsystem.codec p)) := by
  refine .of_granting (CreateSubsystem.codec_sound 0).lawful (fun _ _ => rfl) fun s s' h => ?_
  have hrow : s'.subsystems.find? p.nqn = s.subsystems.find? p.nqn :=
    h.cells (.subsystem p.nqn) List.mem_cons_self
  rw [createSubsystem, createSubsystem, Table.contains, Table.contains, hrow]
  by_cases htaken : (s.subsystems.find? p.nqn).isSome = true
  · exact .inl ⟨_, if_pos htaken, if_pos htaken⟩
  · exact .inr ⟨.subsystem p.nqn (some (newRow p)), List.mem_cons_self, if_neg htaken,
      if_neg htaken⟩

theorem confined_deleteSubsystem (nqn : String) :
    Confined [.subsystem nqn] (·.answer (Method.deleteSubsystem.on SubsystemRef.codec ⟨nqn⟩)) := by
  refine .of_granting (SubsystemRef.codec_sound 0).lawful (fun _ _ => rfl) fun s s' h => ?_
  have hrow : s'.subsystems.find? nqn = s.subsystems.find? nqn :=
    h.cells (.subsystem nqn) List.mem_cons_self
  rw [deleteSubsystem, deleteSubsystem, hrow]
  cases s.subsystems.find? nqn with
  | none => exact .inl ⟨_, rfl, rfl⟩
  | some row => exact .inr ⟨.subsystem nqn none, List.mem_cons_self, rfl, rfl⟩

theorem confined_addHost (p : AddHost) :
    Confined [.subsystem p.nqn] (·.answer (Method.addHost.on AddHost.codec p)) := by
  refine .of_granting (AddHost.codec_sound 0).lawful (fun _ _ => rfl) fun s s' h => ?_
  have hrow : s'.subsystems.find? p.nqn = s.subsystems.find? p.nqn :=
    h.cells (.subsystem p.nqn) List.mem_cons_self
  rw [addHost, addHost, hrow]
  cases s.subsystems.find? p.nqn with
  | none => exact .inl ⟨_, rfl, rfl⟩
  | some row =>
    exact .inr ⟨.subsystem p.nqn (some { row with hosts := row.hosts ++ [hostEntry p.host] }),
      List.mem_cons_self, rfl, rfl⟩

theorem confined_getVersion (C : List Cell) : Confined C (·.answer ⟨.getVersion, none⟩) :=
  .of_writes fun s s' _ => .inl ⟨_, s.answer_getVersion, s'.answer_getVersion⟩

theorem confined_setLimits (p : VolumeLimits) :
    Confined [.limits p.name] (·.answer (Method.setLimits.on VolumeLimits.codec p)) := by
  refine .of_granting (VolumeLimits.codec_sound 0).lawful (fun _ _ => rfl) fun s s' h => ?_
  have hrow : s'.volumes.find? p.name = s.volumes.find? p.name := by
    rw [h.volumes]
  rw [setLimits, setLimits, hrow]
  cases s.volumes.find? p.name with
  | none => exact .inl ⟨_, rfl, rfl⟩
  | some row => exact .inr ⟨.limits p.name p, List.mem_cons_self, rfl, rfl⟩

/-- Making a vhost controller depends on its cell only. -/
theorem createVhost_agree {id : String} {s s' : Simulation} (h : AgreeOn [.vhost id] s s')
    (backend : Backend) :
    (∃ e, s.createVhost id backend = .error e ∧ s'.createVhost id backend = .error e) ∨
      ∃ w, w.cell ∈ [Cell.vhost id] ∧ s.createVhost id backend = .ok (s.write w) ∧
        s'.createVhost id backend = .ok (s'.write w) := by
  have hrow : s'.vhosts.find? id = s.vhosts.find? id := h.cells (.vhost id) List.mem_cons_self
  rw [createVhost, createVhost, Table.contains, Table.contains, hrow]
  by_cases htaken : (s.vhosts.find? id).isSome = true
  · exact .inl ⟨_, if_pos htaken, if_pos htaken⟩
  · exact .inr ⟨.vhost id (newVhostRow id backend), List.mem_cons_self, if_neg htaken,
      if_neg htaken⟩

theorem confined_createBlkController (p : CreateBlkController) :
    Confined [.vhost p.ctrlr]
      (·.answer (Method.createBlkController.on CreateBlkController.codec p)) :=
  .of_granting (CreateBlkController.codec_sound 0).lawful (fun _ _ => rfl) fun _ _ h =>
    createVhost_agree h { block := some { bdev := p.devName } }

theorem confined_createScsiController (p : VhostRef) :
    Confined [.vhost p.ctrlr]
      (·.answer (Method.createScsiController.on VhostRef.codec p)) :=
  .of_granting (VhostRef.codec_sound 0).lawful (fun _ _ => rfl) fun _ _ h =>
    createVhost_agree h { scsi := some [] }

end Engine.Simulation

/-! ## Scripts -/

namespace Engine.Script

open Simulation (Cell Confined)

variable {α β : Type} {C : List Cell}

/-- Every script can go in some way. -/
theorem exists_goes (x : Script α) : ∃ t r, x.Goes t r := by
  induction x with
  | done a => exact ⟨_, _, .done a⟩
  | failed e => exact ⟨_, _, .failed e⟩
  | call request resume ih =>
    obtain ⟨t, r, h⟩ := ih (.ok .null)
    exact ⟨_, r, .call h⟩

/-- The calls of a script that calls first are that call, and those of what it goes on with. -/
theorem asks_call_iff {P : Call → Prop} {request : Call} {resume : Answer → Script α} :
    Asks P (.call request resume) ↔ P request ∧ ∀ answer, Asks P (resume answer) := by
  constructor
  · intro h
    obtain ⟨t, r, hgo⟩ := exists_goes (resume (.ok .null))
    refine ⟨h _ r (.call hgo) _ List.mem_cons_self, fun answer t r hgo x hx => ?_⟩
    exact h _ r (.call hgo) x (List.mem_cons_of_mem _ hx)
  · rintro ⟨hrequest, hresume⟩ t r hgo x hx
    obtain ⟨answer, rest, rfl, hrest⟩ := goes_call_iff.1 hgo
    rcases List.mem_cons.1 hx with rfl | hx
    · exact hrequest
    · exact hresume answer rest r hrest x hx

/-- A script that begins with a check that has passed goes on with what has been checked. -/
theorem Asks.check_bind {P : Call → Prop} {e : Except Rejection α} {f : α → Script β}
    (h : ∀ a, e = .ok a → Asks P (f a)) : Asks P ((Script.check e).bind f) := by
  intro t r hgo
  rcases goes_check_bind_iff.1 hgo with ⟨_, -, rfl, -⟩ | ⟨a, ha, hgo⟩
  · simp
  · exact h a ha t r hgo

/-- Whatever the engine answers, every call of the script is confined to the cells. -/
abbrev StaysIn (C : List Cell) (x : Script α) : Prop :=
  Asks (fun call => Confined C (·.answer call)) x

/-- A script is confined to the cells that its calls are confined to. -/
theorem StaysIn.run {x : Script α} (h : StaysIn C x) : Confined C (x.run Simulation.answer) := by
  induction x with
  | done a => exact .pure _
  | failed e => exact .pure _
  | call request resume ih =>
    obtain ⟨hrequest, hresume⟩ := asks_call_iff.1 h
    exact hrequest.bind fun answer => ih answer (hresume answer)

end Engine.Script

/-! ## Creations of records with objects of their own -/

open Engine.Script (StaysIn)
open Engine.Simulation (Cell Confined)

/-- The cells of a record with an object of its own that is made at a place. -/
def cells (place : Place) : (k : Kind) → k.Record → List Cell
  | .subsystem, s => [.subsystem s.spec.nqn]
  | .virtioBlk, d => [.limits d.volumeNameRef, .vhost place.id]
  | .scsiController, _ => [.vhost place.id]
  | .controller, _ | .nvmeNamespace, _ | .scsiLun, _ => []

theorem Subsystems.make_staysIn (inv : Inventory) (place : Place) (r : Subsystem) :
    StaysIn (cells place .subsystem r) (make inv place r) := by
  have hhost : StaysIn (cells place .subsystem r) (addHost r.spec) := by
    unfold addHost
    cases r.spec.hostnqn with
    | none => exact Asks.done _
    | some host =>
      exact Asks.bind (Asks.invoke _ (Simulation.confined_addHost
        { nqn := r.spec.nqn, host, psk := r.spec.psk })) fun _ => Asks.confirm _ _
  have hfinish : StaysIn (cells place .subsystem r) (finish r.spec) :=
    Asks.bind hhost fun _ => Asks.invokeBare _ (Simulation.confined_getVersion _)
  refine Asks.bind (Asks.check _) fun _ =>
    Asks.bind (Asks.invoke _ (Simulation.confined_createSubsystem (creation r.spec))) fun _ =>
      Asks.bind (Asks.confirm _ _) fun _ => Asks.bind (Asks.attempt hfinish) fun result => ?_
  cases result with
  | ok version => exact Asks.done _
  | error fault =>
    exact Asks.bind (Asks.attempt (Asks.invoke _ (Simulation.confined_deleteSubsystem _)))
      fun _ => Asks.failed _

theorem VirtioBlks.setLimits_staysIn (place : Place) (d : VirtioBlk) {limits : Engine.VolumeLimits}
    (hname : limits.name = d.volumeNameRef) :
    StaysIn (cells place .virtioBlk d) (Engine.setLimits limits) := by
  refine Asks.bind (Asks.invoke _ ((Simulation.confined_setLimits limits).mono ?_)) fun _ =>
    Asks.confirm _ _
  simp [cells, hname]

theorem VirtioBlks.make_staysIn (place : Place) (d : VirtioBlk) :
    StaysIn (cells place .virtioBlk d) (make place d) := by
  have hlimit : StaysIn (cells place .virtioBlk d) (limit d) := by
    unfold limit
    split
    · exact Asks.bind (Asks.check _) fun _ => setLimits_staysIn place d rfl
    · exact Asks.done _
  have hunlimit : StaysIn (cells place .virtioBlk d) (unlimit d) := by
    unfold unlimit
    split
    · exact Asks.bind (Asks.attempt (setLimits_staysIn place d rfl)) fun _ => Asks.done _
    · exact Asks.done _
  refine Asks.check_bind fun params hparams => Asks.bind hlimit fun _ =>
    Asks.bind (Asks.attempt ?_) fun result => ?_
  · -- The vhost controller has the id of the place.
    have hid := (Attach.eq_of_blkController hparams).1
    refine Asks.bind (Asks.invoke _ ((Simulation.confined_createBlkController params).mono ?_))
      fun _ => Asks.confirm _ _
    simp [cells, hid]
  · cases result with
    | ok _ => exact Asks.done _
    | error fault => exact Asks.bind hunlimit fun _ => Asks.failed _

theorem ScsiControllers.make_staysIn (place : Place) (c : ScsiController) :
    StaysIn (cells place .scsiController c) (make place c) := by
  refine Asks.check_bind fun params hparams => ?_
  have hid := Attach.eq_of_scsiController hparams
  refine Asks.bind (Asks.invoke _ ((Simulation.confined_createScsiController params).mono ?_))
    fun _ => Asks.bind (Asks.confirm _ _) fun _ => Asks.done _
  simp [cells, hid]

/-- A record with an object of its own is made within its cells. -/
theorem make_staysIn (registry : Attach.Registry) (inv : Inventory) (place : Place) {k : Kind}
    (hk : k.parent? = none) (draft : k.Record) :
    StaysIn (cells place k draft) ((k.family registry).make inv place draft) := by
  cases k with
  | subsystem => exact Subsystems.make_staysIn inv place draft
  | virtioBlk => exact VirtioBlks.make_staysIn place draft
  | scsiController => exact ScsiControllers.make_staysIn place draft
  | controller | nvmeNamespace | scsiLun => cases hk

/-! ## What is kept -/

/-- A value under a new key that does not pass a test does not matter to the search for the first
value that does. -/
theorem Table.find?_values_insert {α : Type} {t : Table α} {k : String} {v : α} {p : α → Bool}
    (hnew : t.find? k = none) (hp : p v = false) :
    (t.insert k v).values.find? p = t.values.find? p := by
  have hentries (l : List (String × α)) (hl : Assoc.find? k l = none) :
      ((Assoc.insert k v l).map (·.2)).find? p = (l.map (·.2)).find? p := by
    induction l with
    | nil => simp [hp]
    | cons e rest ih =>
      obtain ⟨key, value⟩ := e
      rw [Assoc.find?_cons] at hl
      split at hl
      · cases hl
      · rename_i hne
        have hne' : ¬ k = key := fun h => hne h.symm
        rw [Assoc.insert_cons, if_neg hne']
        split
        · simp [hp]
        · simp only [List.map_cons, List.find?_cons, ih hl]
  exact hentries t.entries hnew

/-- Whether a qualified name is taken does not depend on a record with another one. -/
theorem Subsystems.checkUnowned_keep {inv : Inventory} {name nqn : String} {r : Subsystem}
    (hnew : inv.find? .subsystem name = none) (hne : r.spec.nqn ≠ nqn) :
    checkUnowned (inv.keep .subsystem name r) nqn = checkUnowned inv nqn := by
  have hfind : (inv.keep .subsystem name r).subsystems.values.find? (·.spec.nqn == nqn) =
      inv.subsystems.values.find? (·.spec.nqn == nqn) :=
    Table.find?_values_insert hnew (by simp [hne])
  rw [checkUnowned, hfind, checkUnowned]

namespace Inventory

variable {inv : Inventory} {j k : Kind} {name other : String}

/-- Keeping what may have been made leaves the other names alone. -/
theorem find?_after_keeping (hne : ¬ (k = j ∧ name = other)) (r : Except Fault j.Record) :
    (inv.after (keeping other r)).find? k name = inv.find? k name := by
  cases r with
  | error e => rfl
  | ok record =>
    show (inv.keep j other record).find? k name = inv.find? k name
    by_cases hk : k = j
    · subst hk
      exact find?_keep_of_ne _ (fun h => hne ⟨rfl, h⟩) _
    · rw [find?, table_keep_of_ne _ hk, find?]

/-- What may have been made can be kept in either order, under different names. -/
theorem after_keeping_comm (hne : ¬ (k = j ∧ name = other)) (r : Except Fault k.Record)
    (q : Except Fault j.Record) :
    (inv.after (keeping name r)).after (keeping other q) =
      (inv.after (keeping other q)).after (keeping name r) := by
  cases r with
  | error e => rfl
  | ok record =>
    cases q with
    | error e => rfl
    | ok record' =>
      show (inv.keep k name record).keep j other record' =
        (inv.keep j other record').keep k name record
      by_cases hk : k = j
      · subst hk
        refine ext_table (fun i => ?_) (by simp)
        by_cases hi : i = k
        · subst hi
          simp only [keep, table_withTable_self]
          exact Table.insert_comm _ (fun h => hne ⟨rfl, h⟩) _ _
        · simp only [table_keep_of_ne _ hi]
      · cases k <;> cases j <;> first | rfl | exact absurd rfl hk

end Inventory

/-! ## What a creation comes to -/

/-- A script goes the way of its run. -/
theorem Engine.Script.goes_run {α σ : Type} (engine : σ → Call → Answer × σ) (x : Script α) (s : σ) :
    ∃ t, x.Goes t (x.run engine s).1 := by
  induction x generalizing s with
  | done a => exact ⟨[], .done a⟩
  | failed e => exact ⟨[], .failed e⟩
  | call request resume ih =>
    obtain ⟨t, h⟩ := ih (engine s request).1 (engine s request).2
    exact ⟨_, .call h⟩

/-- A record that a script makes is kept when the script is done. -/
theorem Procedure.run_keeping {σ : Type} (engine : σ → Call → Answer × σ) {k : Kind} (name : String)
    (x : Script k.Record) (s : σ) :
    let course := (((ofScript x).bind fun made => (make (.keep k name made)).bind fun _ =>
      .done made).bind fun made => .done (Reply.record made)).run engine s
    course.result = (x.run engine s).1.map Reply.record ∧ course.engine = (x.run engine s).2 ∧
      ∀ inv : Inventory, inv.after course.events = inv.after (keeping name (x.run engine s).1) := by
  induction x generalizing s with
  | done a => exact ⟨rfl, rfl, fun _ => rfl⟩
  | failed e => exact ⟨rfl, rfl, fun _ => rfl⟩
  | call request resume ih => exact ih (engine s request).1 (engine s request).2

namespace World

variable {registry : Attach.Registry} {w : World} {j k : Kind} {parent parent' id id' : String}
  {draft : k.Record} {draft' : j.Record} {bits bits' : Nat}

/-- The step that creates a record. -/
abbrev creating (k : Kind) (parent : String) (draft : k.Record) (id : String) (bits : Nat) : Step :=
  ⟨k, .create parent draft id, bits⟩

/-- The place of the record that a step is to create. -/
abbrev placeOf (registry : Attach.Registry) (k : Kind) (parent : String) (draft : k.Record)
    (id : String) (bits : Nat) : Except Rejection Place :=
  (k.family registry).place (Uuid.text bits) parent draft id

/-- A step comes to a result and changes nothing. -/
structure Idle (registry : Attach.Registry) (w : World) (step : Step)
    (r : Except Fault (Reply step.kind)) : Prop where
  result : w.result registry step = r
  act : w.act registry (.take step) = w

theorem idle_of_rejected {why : Rejection}
    (hplace : placeOf registry k parent draft id bits = .error why) (w : World) :
    w.Idle registry (creating k parent draft id bits) (.error (.rejected why)) := by
  have hcourse : (creating k parent draft id bits).take registry Simulation.answer w.inventory
      w.engine = ⟨[], .error (.rejected why), w.engine⟩ := by
    simp [Step.take, Step.fresh, Inventory.perform, Inventory.create, hplace, Script.check,
      Procedure.ofScript, Procedure.run]
  exact ⟨by rw [result, hcourse], by simp only [act, hcourse]; rfl⟩

theorem idle_of_kept {place : Place} {kept : k.Record}
    (hplace : placeOf registry k parent draft id bits = .ok place)
    (hkept : w.inventory.find? k place.name = some kept) :
    w.Idle registry (creating k parent draft id bits) (.ok (.record kept)) := by
  have hcourse : (creating k parent draft id bits).take registry Simulation.answer w.inventory
      w.engine = ⟨[], .ok (.record kept), w.engine⟩ := by
    simp [Step.take, Step.fresh, Inventory.perform, Inventory.create, hplace, hkept, Script.check,
      Procedure.ofScript, Procedure.run]
  exact ⟨by rw [result, hcourse], by simp only [act, hcourse]; rfl⟩

/-- What making a record comes to, and the engine afterwards. -/
def making (registry : Attach.Registry) (inv : Inventory) (place : Place) (draft : k.Record) :
    Simulation → Except Fault k.Record × Simulation :=
  ((k.family registry).make inv place draft).run Simulation.answer

theorem create_of_new {place : Place}
    (hplace : placeOf registry k parent draft id bits = .ok place)
    (hnew : w.inventory.find? k place.name = none) :
    let made := making registry w.inventory place draft w.engine
    w.result registry (creating k parent draft id bits) = made.1.map Reply.record ∧
      w.act registry (.take (creating k parent draft id bits)) =
        ⟨w.inventory.after (keeping place.name made.1), made.2⟩ := by
  intro made
  have hcourse : (creating k parent draft id bits).take registry Simulation.answer w.inventory
      w.engine = (((Procedure.ofScript ((k.family registry).make w.inventory place draft)).bind
        fun made => (Procedure.make (.keep k place.name made)).bind fun _ => .done made).bind
          fun made => .done (Reply.record made)).run Simulation.answer w.engine := by
    simp [Step.take, Step.fresh, Inventory.perform, Inventory.create, hplace, hnew, Script.check,
      Procedure.ofScript]
  obtain ⟨hresult, hengine, hafter⟩ := Procedure.run_keeping Simulation.answer place.name
    ((k.family registry).make w.inventory place draft) w.engine
  rw [← hcourse] at hresult hengine hafter
  refine ⟨hresult, ?_⟩
  show World.mk _ _ = _
  rw [hafter, hengine]
  rfl

/-! ## Two creations -/

/-- Two steps come to the same in either order. -/
structure Commute (registry : Attach.Registry) (w : World) (a b : Step) : Prop where
  first : (w.act registry (.take b)).result registry a = w.result registry a
  second : (w.act registry (.take a)).result registry b = w.result registry b
  act : (w.act registry (.take a)).act registry (.take b) =
    (w.act registry (.take b)).act registry (.take a)

theorem Commute.symm {a b : Step} (h : w.Commute registry a b) : w.Commute registry b a :=
  ⟨h.second, h.first, h.act.symm⟩

/-- A step that changes nothing, neither before another one nor after it, commutes with it. -/
theorem commute_of_idle {a b : Step} {r : Except Fault (Reply a.kind)} (hbefore : w.Idle registry a r)
    (hafter : (w.act registry (.take b)).Idle registry a r) : w.Commute registry a b where
  first := hafter.result.trans hbefore.result.symm
  second := by rw [hbefore.act]
  act := by rw [hbefore.act, hafter.act]

/-- A creation leaves the names of other records alone. -/
theorem find?_act_creating {place : Place} {name : String}
    (hplace : placeOf registry j parent' draft' id' bits' = .ok place)
    (hne : ¬ (k = j ∧ name = place.name)) :
    (w.act registry (.take (creating j parent' draft' id' bits'))).inventory.find? k name =
      w.inventory.find? k name := by
  cases hfind : w.inventory.find? j place.name with
  | some kept => rw [(idle_of_kept hplace hfind).act]
  | none =>
    rw [(create_of_new hplace hfind).2]
    exact Inventory.find?_after_keeping hne _

/-- The records have objects of their own with different qualified names, or on different volumes, as
far as they have any. -/
def Apart : (k : Kind) → k.Record → (j : Kind) → j.Record → Prop
  | .subsystem, r, .subsystem, q => r.spec.nqn ≠ q.spec.nqn
  | .virtioBlk, d, .virtioBlk, e => d.volumeNameRef ≠ e.volumeNameRef
  | _, _, _, _ => True

theorem Apart.symm (h : Apart k draft j draft') : Apart j draft' k draft := by
  cases k <;> cases j <;> first | trivial | exact Ne.symm h

/-- A record that is made is apart from what its draft is apart from. -/
theorem Apart.of_made {inv : Inventory} {place : Place} {made : j.Record} {t : List Exchange}
    (h : Apart k draft j draft') (hmade : Made registry inv place j draft' made t) :
    Apart k draft j made := by
  cases hmade <;> cases k <;> exact h

/-- Making a record with an object of its own does not depend on a record that is apart from it. -/
theorem make_keep {inv : Inventory} {place : Place} {name : String} (hk : k.parent? = none)
    (hnew : inv.find? j name = none) (hapart : Apart k draft j draft') :
    (k.family registry).make (inv.keep j name draft') place draft =
      (k.family registry).make inv place draft := by
  cases k with
  | virtioBlk | scsiController => rfl
  | controller | nvmeNamespace | scsiLun => cases hk
  | subsystem =>
    show Subsystems.make (inv.keep j name draft') place draft = Subsystems.make inv place draft
    have hunowned : Subsystems.checkUnowned (inv.keep j name draft') draft.spec.nqn =
        Subsystems.checkUnowned inv draft.spec.nqn := by
      cases j with
      | subsystem => exact Subsystems.checkUnowned_keep hnew (Ne.symm hapart)
      | controller | nvmeNamespace | virtioBlk | scsiController | scsiLun => rfl
    rw [Subsystems.make, hunowned, Subsystems.make]

/-- After another creation a record that is apart is made in the same way. -/
theorem making_after_keeping {inv : Inventory} {place place' : Place} {s : Simulation}
    (hk : k.parent? = none) (hnew' : inv.find? j place'.name = none)
    (hapart : Apart k draft j draft') :
    making registry (inv.after (keeping place'.name (making registry inv place' draft' s).1)) place
      draft = making registry inv place draft := by
  obtain ⟨t, hgo⟩ := Script.goes_run Simulation.answer
    ((j.family registry).make inv place' draft') s
  replace hgo : ((j.family registry).make inv place' draft').Goes t
    (making registry inv place' draft' s).1 := hgo
  cases hmade : (making registry inv place' draft' s).1 with
  | error e => rfl
  | ok record =>
    rw [hmade] at hgo
    rcases goes_make hgo with ⟨_, hr, hrecord⟩ | ⟨_, hr, -⟩
    · obtain rfl := Except.ok.inj hr
      exact congrArg (Script.run Simulation.answer) (make_keep hk hnew' (hapart.of_made hrecord))
    · cases hr

/-- The cells of records that are apart are different if the places have different ids. -/
theorem not_mem_cells {place place' : Place} (hid : place.id ≠ place'.id)
    (hapart : Apart k draft j draft') : ∀ c ∈ cells place k draft, c ∉ cells place' j draft' := by
  cases k <;> cases j <;> simp_all [cells, Apart]

/-- The place of a record without parent has the id that is asked for. -/
theorem place_of_root {place : Place} (hk : k.parent? = none) (hid : id ≠ "")
    (hplace : placeOf registry k parent draft id bits = .ok place) :
    place.id = id ∧ place.name = Name.compose k "" id := by
  obtain ⟨owner, own, -, -, hown, rfl⟩ := Family.eq_under_of_place hplace
  obtain rfl : own = id := by
    rcases Place.eq_of_idOf hown with ⟨hempty, -⟩ | ⟨h, -⟩
    · exact absurd hempty hid
    · exact h
  exact ⟨rfl, by simp [Place.under, Place.parentId, hk]⟩

/-- What a creation comes to after another one that is apart from it. -/
theorem create_after {place place' : Place} (hk : k.parent? = none)
    (hplace : placeOf registry k parent draft id bits = .ok place)
    (hplace' : placeOf registry j parent' draft' id' bits' = .ok place')
    (hnew : w.inventory.find? k place.name = none) (hnew' : w.inventory.find? j place'.name = none)
    (hnames : ¬ (k = j ∧ place.name = place'.name)) (hapart : Apart k draft j draft') :
    let made' := making registry w.inventory place' draft' w.engine
    let made := making registry w.inventory place draft made'.2
    let w' := w.act registry (.take (creating j parent' draft' id' bits'))
    w'.result registry (creating k parent draft id bits) = made.1.map Reply.record ∧
      w'.act registry (.take (creating k parent draft id bits)) =
        ⟨(w.inventory.after (keeping place'.name made'.1)).after (keeping place.name made.1),
          made.2⟩ := by
  intro made' made w'
  have hw' : w' = ⟨w.inventory.after (keeping place'.name made'.1), made'.2⟩ :=
    (create_of_new hplace' hnew').2
  have hfree : w'.inventory.find? k place.name = none := by
    rw [find?_act_creating hplace' hnames, hnew]
  have hcreate := create_of_new hplace hfree
  have hmade : making registry w'.inventory place draft w'.engine = made := by
    rw [hw']
    exact congrFun (making_after_keeping hk hnew' hapart) made'.2
  simp only [hmade] at hcreate
  rwa [hw'] at hcreate ⊢

/-- Two creations of records with objects of their own come to the same in either order, in every
world: they have the same results, records or faults, and then there are the same records, page
tokens, subsystems, limits and vhost controllers. The caller has to choose different ids, and the
subsystems have to have different qualified names and the devices different volumes. -/
theorem creations_commute (registry : Attach.Registry) (w : World) {j k : Kind}
    (hk : k.parent? = none) (hj : j.parent? = none) (parent parent' : String) (draft : k.Record)
    (draft' : j.Record) {id id' : String} (bits bits' : Nat) (hid : id ≠ "") (hid' : id' ≠ "")
    (hne : id ≠ id') (hapart : Apart k draft j draft') :
    w.Commute registry ⟨k, .create parent draft id, bits⟩ ⟨j, .create parent' draft' id', bits'⟩ := by
  cases hplace : placeOf registry k parent draft id bits with
  | error why => exact commute_of_idle (idle_of_rejected hplace w) (idle_of_rejected hplace _)
  | ok place =>
  cases hplace' : placeOf registry j parent' draft' id' bits' with
  | error why =>
    exact (commute_of_idle (idle_of_rejected hplace' w) (idle_of_rejected hplace' _)).symm
  | ok place' =>
  obtain ⟨hown, hname⟩ := place_of_root hk hid hplace
  obtain ⟨hown', hname'⟩ := place_of_root hj hid' hplace'
  have hnames : ¬ (k = j ∧ place.name = place'.name) := by
    rintro ⟨rfl, hsame⟩
    rw [hname, hname', Name.compose_inj] at hsame
    exact hne hsame
  have hnames' : ¬ (j = k ∧ place'.name = place.name) :=
    fun ⟨hkind, hsame⟩ => hnames ⟨hkind.symm, hsame.symm⟩
  cases hnew : w.inventory.find? k place.name with
  | some kept =>
    refine commute_of_idle (idle_of_kept hplace hnew) (idle_of_kept hplace ?_)
    rw [find?_act_creating hplace' hnames, hnew]
  | none =>
  cases hnew' : w.inventory.find? j place'.name with
  | some kept =>
    refine (commute_of_idle (idle_of_kept hplace' hnew') (idle_of_kept hplace' ?_)).symm
    rw [find?_act_creating hplace hnames', hnew']
  | none =>
  -- Both records are made, in different cells, and the one does not matter to the other.
  have hfirst := (make_staysIn registry w.inventory place hk draft).run
  have hsecond := (make_staysIn registry w.inventory place' hj draft').run
  obtain ⟨hresult, hresult', hengine⟩ :=
    hfirst.commute hsecond (not_mem_cells (by rwa [hown, hown']) hapart) w.engine
  obtain ⟨hmade, hact⟩ := create_after hk hplace hplace' hnew hnew' hnames hapart
  obtain ⟨hmade', hact'⟩ := create_after hj hplace' hplace hnew' hnew hnames' hapart.symm
  refine ⟨?_, ?_, ?_⟩
  · rw [hmade, (create_of_new hplace hnew).1]
    exact congrArg (Except.map Reply.record) hresult
  · rw [hmade', (create_of_new hplace' hnew').1]
    exact congrArg (Except.map Reply.record) hresult'
  · rw [hact, hact']
    unfold making
    rw [hresult, hresult', hengine, Inventory.after_keeping_comm hnames]

/-- A subsystem and a device can be made in either order. -/
theorem creations_commute_of_subsystem_and_device :
    let subsystem : Step :=
      ⟨.subsystem, .create "" { spec := { nqn := "nqn.2022-09.io.spdk:one" } } "s1", 0⟩
    let device : Step := ⟨.virtioBlk, .create "" { volumeNameRef := "Malloc0" } "d1", 0⟩
    (after {} []).Commute {} subsystem device :=
  creations_commute {} (after {} []) rfl rfl "" "" _ _ 0 0 (by decide) (by decide) (by decide) trivial

end World

end StorageControl
