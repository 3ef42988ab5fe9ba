/-
# Limits in force

The limits of a device belong to the device here, but the engine keeps one set of limits for each
volume. They are written when a device is made, and lifted when it is dropped or when its vhost
controller turns out not to be made, whatever other devices there are on the volume. So what is in
force on a volume is what was written last, and the limits of a device are in force until an action
writes something else there.
-/
import StorageControl.Proofs.Compensation
import StorageControl.Proofs.Placement
import StorageControl.Proofs.Roots

namespace StorageControl

open Engine (Answer Call Method Script Simulation VolumeLimits)
open Engine.Script
open Engine.Simulation (SameVolumes)
open Procedure (Plays plays_append)

variable {registry : Attach.Registry} {fresh : String} {inv : Inventory} {k : Kind}
  {s s' : Simulation} {place : Place} {d : VirtioBlk} {l : Limits}

/-! ## Rows that set limits -/

/-- The row sets exactly the limits on the volume. A thousand operations per second are one unit. -/
structure Engine.VolumeLimits.Sets (row : VolumeLimits) (volume : String) (l : Limits) : Prop where
  name : row.name = volume
  operations : row.rwIosPerSec.toInt = l.rwIopsKiops.toInt * 1000
  bandwidth : row.rwMbytesPerSec = l.rwBandwidthMbs
  reading : row.rMbytesPerSec = l.rdBandwidthMbs
  writing : row.wMbytesPerSec = l.wrBandwidthMbs

/-- Limits on operations that are set are no more than the greatest number that fits. -/
theorem Engine.VolumeLimits.Sets.fits {row : VolumeLimits} {volume : String}
    (h : row.Sets volume l) : l.rwIopsKiops.toInt * 1000 ≤ Int64.maxValue.toInt := by
  rw [← h.operations]
  exact Int64.toInt_le _

/-- A limit on operations that is not negative is set exactly if the number of operations per second
is no more than the greatest number that fits. -/
theorem Engine.sets_volumeLimits_iff {volume : String}
    (hcheck : Engine.checkLimits volume l = .ok ()) :
    (Engine.volumeLimits volume l).Sets volume l ↔
      l.rwIopsKiops.toInt * 1000 ≤ Int64.maxValue.toInt := by
  have hnonneg : 0 ≤ l.rwIopsKiops.toInt := by
    unfold Engine.checkLimits at hcheck
    split at hcheck
    · cases hcheck
    · rename_i hnone
      have hfirst := List.find?_eq_none.1 hnone ("rwIopsKiops", l.rwIopsKiops) List.mem_cons_self
      rw [decide_eq_true_eq, Int64.lt_iff_toInt_lt] at hfirst
      exact Int.not_lt.1 hfirst
  have hproduct : (l.rwIopsKiops * Engine.operationsPerUnit).toInt =
      (l.rwIopsKiops.toInt * 1000).bmod (2 ^ 64) := Int64.toInt_mul _ _
  refine ⟨Engine.VolumeLimits.Sets.fits, fun hfits => ⟨rfl, ?_, rfl, rfl, rfl⟩⟩
  have hmax : Int64.maxValue.toInt = 9223372036854775807 := rfl
  show (l.rwIopsKiops * Engine.operationsPerUnit).toInt = _
  rw [hproduct]
  apply Int.bmod_eq_of_le <;> omega

/-! ## What is written -/

/-- The limits that the engine has when a row is written, if one is. -/
def Engine.Simulation.limitsAfter (s : Simulation) : Option VolumeLimits → Table VolumeLimits
  | none => s.limits
  | some row => s.limits.insert row.name row

namespace VirtioBlks

/-- A device can be attached, and its limits pass the check. -/
def passes (place : Place) (d : VirtioBlk) : Bool :=
  (Attach.blkController place.id d).isOk &&
    d.limits?.all fun l => (Engine.checkLimits d.volumeNameRef l).isOk

/-- What the making of a device writes. Its limits are set when the engine has its volume. When the
engine has a vhost controller with its id already, the device is not made, and the limits are
lifted. -/
def makingLimits (s : Simulation) (place : Place) (d : VirtioBlk) : Option VolumeLimits := do
  let l ← d.limits?
  let _ ← s.volumes.find? d.volumeNameRef
  if passes place d then
    if s.vhosts.contains place.id then some { name := d.volumeNameRef }
    else some (Engine.volumeLimits d.volumeNameRef l)
  else none

/-- What is written when a device is dropped: its limits are lifted. -/
def droppingLimits (d : VirtioBlk) : Option VolumeLimits :=
  d.limits?.map fun _ => { name := d.volumeNameRef }

/-- What an operation on devices writes. -/
def limitsLeft (registry : Attach.Registry) (fresh : String) (inv : Inventory) (s : Simulation)
    (op : Operation .virtioBlk) : Option VolumeLimits :=
  match op with
  | .delete request => (inv.find? .virtioBlk request.name).bind droppingLimits
  | op => (op.draft? registry fresh).bind fun (place, d) =>
    if (inv.find? .virtioBlk place.name).isSome then none else makingLimits s place d

end VirtioBlks

/-- What an action writes. Nothing else about limits changes in the engine (`limits_act`). -/
def World.writes (registry : Attach.Registry) (w : World) : World.Action → Option VolumeLimits
  | .take ⟨.virtioBlk, op, bits⟩ =>
    VirtioBlks.limitsLeft registry (Uuid.text bits) w.inventory w.engine op
  | _ => none

/-! ## Calls that leave the limits alone -/

/-- Whatever the engine answers, the script does not set limits. -/
abbrev Engine.Script.SparesLimits {α : Type} (x : Script α) : Prop :=
  Asks (fun call => call.method ≠ .setLimits) x

theorem Engine.Script.Queries.sparesLimits {α : Type} {x : Script α} (h : Queries x) :
    SparesLimits x := by
  refine h.mono fun call hcall => ?_
  intro hmethod
  rw [hmethod] at hcall
  cases hcall

theorem Subsystems.make_sparesLimits (inv : Inventory) (place : Place) (r : Subsystem) :
    SparesLimits (Subsystems.make inv place r) := by
  have hhost : SparesLimits (Subsystems.addHost r.spec) := by
    unfold Subsystems.addHost
    split
    · exact Asks.done _
    · exact Asks.bind (Asks.invoke _ nofun) fun _ => Asks.confirm _ _
  have hfinish : SparesLimits (Subsystems.finish r.spec) :=
    Asks.bind hhost fun _ => Asks.invokeBare _ nofun
  refine Asks.bind (Asks.check _) fun _ => Asks.bind (Asks.invoke _ nofun) fun _ =>
    Asks.bind (Asks.confirm _ _) fun _ => Asks.bind (Asks.attempt hfinish) fun result => ?_
  cases result with
  | ok version => exact Asks.done _
  | error fault =>
    exact Asks.bind (Asks.attempt (Asks.invoke _ nofun)) fun _ => Asks.failed _

/-- Only the making of a device sets limits. -/
theorem make_sparesLimits (registry : Attach.Registry) (inv : Inventory) (place : Place)
    (hk : k ≠ .virtioBlk) (draft : k.Record) :
    SparesLimits ((k.family registry).make inv place draft) := by
  cases k with
  | virtioBlk => exact absurd rfl hk
  | subsystem => exact Subsystems.make_sparesLimits inv place draft
  | controller =>
    exact Asks.bind (Asks.demand _ _) fun _ => Asks.bind (Asks.check _) fun _ =>
      Asks.bind (Asks.invoke _ nofun) fun _ => Asks.bind (Asks.confirm _ _) fun _ =>
        Asks.done _
  | nvmeNamespace | scsiLun =>
    exact Asks.bind (Asks.demand _ _) fun _ => Asks.bind (Asks.invoke _ nofun) fun _ =>
      Asks.bind (Asks.confirm _ _) fun _ => Asks.done _
  | scsiController =>
    exact Asks.bind (Asks.check _) fun _ => Asks.bind (Asks.invoke _ nofun) fun _ =>
      Asks.bind (Asks.confirm _ _) fun _ => Asks.done _

/-- Removing the object of a record sets no limits. -/
theorem release_sparesLimits (registry : Attach.Registry) (inv : Inventory) (name : String)
    (record : k.Record) : SparesLimits ((k.family registry).release inv name record) := by
  intro t r h x hx
  rcases goes_release h with ⟨-, rfl, -⟩ | ⟨call, answer, hcall, rfl, -⟩
  · cases hx
  · rw [List.mem_singleton] at hx
    subst hx
    intro hmethod
    have hobject := method_of_removal hcall
    rw [hmethod] at hobject
    cases hobject

/-- An operation sets no limits if the making that it may come to sets none, and neither does what
it may have left to do for a dropped record. -/
theorem Way.spares_limits {op : Operation k} {events : List Event} {r : Except Fault (Reply k)}
    (h : Way registry fresh inv op events r)
    (hmake : ∀ place draft, op.draft? registry fresh = some (place, draft) →
      inv.find? k place.name = none → SparesLimits ((k.family registry).make inv place draft))
    (htidy : ∀ request record, op = .delete request → inv.find? k request.name = some record →
      SparesLimits ((k.family registry).tidy record)) :
    ∀ x ∈ exchanges events, x.request.method ≠ .setLimits := by
  have hasked {t : List Exchange} {rest : List Event} (hrest : exchanges rest = [])
      (ht : ∀ x ∈ t, x.request.method ≠ .setLimits) :
      ∀ x ∈ exchanges (t.map .asked ++ rest), x.request.method ≠ .setLimits := by
    rw [exchanges_append, exchanges_map_asked, hrest, List.append_nil]
    exact ht
  cases h with
  | settled => simp [exchanges]
  | refreshed hkept hgo =>
    rw [exchanges_map_asked]
    exact (refresh_queries registry inv _ _).sparesLimits _ _ hgo
  | measured hcounters hkept hgo =>
    rw [exchanges_map_asked]
    exact (counters_queries registry hcounters _).sparesLimits _ _ hgo
  | listed hwindow hparent hgo =>
    exact hasked rfl ((items_queries registry inv _ k).sparesLimits _ _ hgo)
  | unlisted hparent hgo =>
    rw [exchanges_map_asked]
    exact (items_queries registry inv _ k).sparesLimits _ _ hgo
  | @attempted _ _ _ _ made hop hnew hgo =>
    refine hasked ?_ (hmake _ _ hop hnew _ _ hgo)
    cases made <;> rfl
  | revised => simp [exchanges, Event.exchange?]
  | @dropped request record t u hkept hgo hgo' =>
    rw [exchanges_append, exchanges_map_asked]
    intro x hx
    rcases List.mem_append.1 hx with hx | hx
    · exact release_sparesLimits registry inv _ _ _ _ hgo x hx
    · have hx : x ∈ exchanges (u.map .asked) := hx
      rw [exchanges_map_asked] at hx
      exact htidy _ _ rfl hkept _ _ hgo' x hx
  | held hkept hgo =>
    rw [exchanges_map_asked]
    exact release_sparesLimits registry inv _ _ _ _ hgo

/-- Operations on other records than devices set no limits. -/
theorem Way.spares_limits_of_ne {op : Operation k} {events : List Event}
    {r : Except Fault (Reply k)} (h : Way registry fresh inv op events r) (hk : k ≠ .virtioBlk) :
    ∀ x ∈ exchanges events, x.request.method ≠ .setLimits := by
  refine h.spares_limits (fun place draft _ _ => make_sparesLimits registry inv place hk draft) ?_
  intro request record _ _
  cases k with
  | virtioBlk => exact absurd rfl hk
  | _ => exact Asks.done _

/-- Events that set no limits leave the volumes and their limits as they are. -/
theorem sameVolumes_of_plays {events : List Event}
    (hspares : ∀ x ∈ exchanges events, x.request.method ≠ .setLimits)
    (h : Plays Simulation.answer s events s') : SameVolumes s s' := by
  refine Procedure.rel_of_plays .refl .trans (fun x hx s => ?_) h
  exact Engine.Simulation.sameVolumes_answer (hspares x (List.mem_filterMap.2 ⟨_, hx, rfl⟩)) s

/-- Whatever is asked, the volumes stay. -/
theorem volumes_of_plays {events : List Event} (h : Plays Simulation.answer s events s') :
    s'.volumes = s.volumes := by
  refine Procedure.rel_of_plays (R := fun s s' => s'.volumes = s.volumes) (fun _ => rfl) ?_ ?_ h
  · intro s₁ s₂ s₃ h₁ h₂
    exact h₂.trans h₁
  · intro x _ s
    exact s.volumes_answer x.request

/-! ## Limits of a device -/

namespace VirtioBlks

/-- A device passes when it can be attached and has no limits that are not well formed. -/
theorem passes_iff : passes place d = true ↔
    (∃ params, Attach.blkController place.id d = .ok params) ∧
      ∀ l, d.limits? = some l → Engine.checkLimits d.volumeNameRef l = .ok () := by
  unfold passes
  cases Attach.blkController place.id d with
  | error why => simp [Except.isOk, Except.toBool]
  | ok params =>
    cases d.limits? with
    | none => simp [Except.isOk, Except.toBool]
    | some l =>
      cases hcheck : Engine.checkLimits d.volumeNameRef l <;>
        simp [Except.isOk, Except.toBool, hcheck]

/-- The engine is asked for a device exactly if it passes. -/
theorem asked_iff_passes {t : List Exchange} {r : Except Fault VirtioBlk}
    (h : (make place d).Goes t r) : t ≠ [] ↔ passes place d = true := by
  rw [passes_iff]
  rcases goes_check_bind_iff.1 h with ⟨why, hwhy, rfl, -⟩ | ⟨params, hparams, hmake⟩
  · simp [hwhy]
  rcases goes_bind_iff.1 hmake with ⟨e, hlimit, rfl⟩ | ⟨_, before, rest, hlimit, hrest, rfl⟩
  · rcases goes_limit hlimit with ⟨-, hr, -⟩ | ⟨l, why, hl, hwhy, rfl, -⟩ |
      ⟨l, answer, hl, hcheck, -, rfl, -⟩
    · cases hr
    · simp [hl, hwhy]
    · simp [hparams, hl, hcheck]
  · rcases goes_limit hlimit with ⟨-, -, hcheck⟩ | ⟨_, _, -, -, -, hr⟩ | ⟨_, _, -, -, -, -, hr⟩
    · obtain ⟨result, t₁, t₂, hattach, -, rfl⟩ := goes_attempt_bind_iff.1 hrest
      obtain ⟨answer, rfl, -⟩ := goes_grant_iff.1 hattach
      simpa [hparams] using hcheck
    · cases hr
    · cases hr

/-! ### Calls for a device -/

/-- Limits are set if the engine has the volume. -/
theorem plays_limit {answer : Answer} {rest : List Event}
    (h : Plays Simulation.answer s (.asked ⟨limitCall d l, answer⟩ :: rest) s') :
    ((s.volumes.find? d.volumeNameRef).isSome ∧ answer = .ok (.bool true) ∧
        Plays Simulation.answer
          { s with
            limits := s.limits.insert d.volumeNameRef (Engine.volumeLimits d.volumeNameRef l) }
          rest s') ∨
      (s.volumes.find? d.volumeNameRef = none ∧ answer ≠ .ok (.bool true) ∧
        Plays Simulation.answer s rest s') := by
  rcases s.answer_setLimits (Engine.volumeLimits d.volumeNameRef l) with
    ⟨row, hrow, heq⟩ | ⟨e, hnone, heq⟩
  · obtain ⟨rfl, hrest⟩ := plays_asked h heq
    exact .inl ⟨Option.isSome_of_eq_some hrow, rfl, hrest⟩
  · obtain ⟨rfl, hrest⟩ := plays_asked h heq
    exact .inr ⟨hnone, nofun, hrest⟩

/-- Limits are lifted if the engine has the volume. -/
theorem plays_unlimit {answer : Answer}
    (h : Plays Simulation.answer s [.asked ⟨unlimitCall d, answer⟩] s')
    (hvolume : (s.volumes.find? d.volumeNameRef).isSome) :
    s'.limits = s.limits.insert d.volumeNameRef { name := d.volumeNameRef } := by
  rcases s.answer_setLimits { name := d.volumeNameRef } with ⟨row, hrow, heq⟩ | ⟨e, hnone, heq⟩
  · obtain ⟨-, rfl⟩ := plays_asked h heq
    rfl
  · rw [show s.volumes.find? d.volumeNameRef = none from hnone] at hvolume
    cases hvolume

/-- A vhost controller is made if the engine has none with its id. -/
theorem plays_attach {answer : Answer} {rest : List Event}
    (h : Plays Simulation.answer s (.asked ⟨attachCall place d, answer⟩ :: rest) s') :
    (s.vhosts.contains place.id = false ∧ answer = .ok (.bool true) ∧
        ∃ s₁, SameVolumes s s₁ ∧ Plays Simulation.answer s₁ rest s') ∨
      (s.vhosts.contains place.id = true ∧ answer ≠ .ok (.bool true) ∧
        Plays Simulation.answer s rest s') := by
  rw [Table.contains]
  rcases s.answer_createBlkController ⟨place.id, d.volumeNameRef⟩ with
    ⟨hfree, heq⟩ | ⟨e, htaken, heq⟩
  · obtain ⟨rfl, hrest⟩ := plays_asked h heq
    refine .inl ⟨?_, rfl, _, ?_, hrest⟩
    · rw [show s.vhosts.find? place.id = none from hfree]
      rfl
    · exact ⟨rfl, rfl⟩
  · obtain ⟨rfl, hrest⟩ := plays_asked h heq
    refine .inr ⟨Option.isSome_iff_ne_none.2 htaken, ?_, hrest⟩
    intro hyes
    cases hyes

/-- A device that is attached has been limited, if it has limits. -/
theorem plays_attached
    (h : Plays Simulation.answer s
      ((limiting d ++ [Exchange.granted (attachCall place d)]).map .asked) s') :
    s.vhosts.contains place.id = false ∧
      (d.limits?.isSome → (s.volumes.find? d.volumeNameRef).isSome) ∧
        s'.limits = s.limitsAfter (d.limits?.map (Engine.volumeLimits d.volumeNameRef)) := by
  cases hl : d.limits? with
  | none =>
    rw [limiting, hl] at h
    rcases plays_attach h with ⟨hfree, -, s₁, hsame, rfl⟩ | ⟨-, hno, -⟩
    · exact ⟨hfree, fun hlimited => absurd hlimited Bool.false_ne_true, hsame.2⟩
    · exact absurd rfl hno
  | some l =>
    rw [Attempt.limiting_eq hl] at h
    rcases plays_limit h with ⟨hvolume, -, h⟩ | ⟨-, hno, -⟩
    · rcases plays_attach h with ⟨hfree, -, s₁, hsame, rfl⟩ | ⟨-, hno, -⟩
      · exact ⟨hfree, fun _ => hvolume, hsame.2⟩
      · exact absurd rfl hno
    · exact absurd rfl hno

/-- A device that is attached leaves its limits, if it has limits. -/
theorem makingLimits_eq (hpasses : passes place d = true)
    (hfree : s.vhosts.contains place.id = false)
    (hvolume : d.limits?.isSome → (s.volumes.find? d.volumeNameRef).isSome) :
    makingLimits s place d = d.limits?.map (Engine.volumeLimits d.volumeNameRef) := by
  cases hl : d.limits? with
  | none => simp [makingLimits, hl]
  | some l =>
    obtain ⟨row, hrow⟩ := Option.isSome_iff_exists.1 (hvolume (by rw [hl]; rfl))
    simp [makingLimits, hl, hrow, hpasses, hfree]

/-- What the making of a device writes is in the engine afterwards. -/
theorem limits_of_make {t : List Exchange} {r : Except Fault VirtioBlk}
    (h : (make place d).Goes t r) (hplays : Plays Simulation.answer s (t.map .asked) s') :
    s'.limits = s.limitsAfter (makingLimits s place d) := by
  have hpasses := asked_iff_passes h
  cases attempt_of_goes h with
  | rejected why =>
    obtain rfl : s' = s := hplays
    have hno : passes place d = false := by simpa using hpasses
    cases hl : d.limits? <;> simp [makingLimits, hl, hno, Engine.Simulation.limitsAfter]
  | @unlimited l answer hl hanswer =>
    rcases plays_limit hplays with ⟨-, hyes, -⟩ | ⟨hnone, -, rfl⟩
    · exact absurd hyes hanswer
    · simp [makingLimits, hl, hnone, Engine.Simulation.limitsAfter]
  | @detached answer lifting hanswer hlifting =>
    replace hpasses : passes place d = true := hpasses.1 (by simp)
    rcases hlifting with ⟨hl, rfl⟩ | ⟨⟨l, hl⟩, undone, rfl⟩
    · rw [limiting, hl] at hplays
      rcases plays_attach hplays with ⟨-, hyes, -⟩ | ⟨-, -, rfl⟩
      · exact absurd hyes hanswer
      · simp [makingLimits, hl, Engine.Simulation.limitsAfter]
    · rw [Attempt.limiting_eq hl] at hplays
      rcases plays_limit hplays with ⟨hvolume, -, hplays⟩ | ⟨-, hno, -⟩
      · rcases plays_attach hplays with ⟨-, hyes, -⟩ | ⟨htaken, -, hplays⟩
        · exact absurd hyes hanswer
        · obtain ⟨row, hrow⟩ := Option.isSome_iff_exists.1 hvolume
          rw [plays_unlimit hplays hvolume]
          simp [makingLimits, hl, hrow, hpasses, htaken, Engine.Simulation.limitsAfter,
            Table.insert_insert]
      · exact absurd rfl hno
  | attached =>
    obtain ⟨hfree, hvolume, hlimits⟩ := plays_attached hplays
    rw [hlimits, makingLimits_eq (hpasses.1 (by simp)) hfree hvolume]

/-- A device with limits that is made passes, and leaves exactly its limits. -/
theorem makingLimits_of_made {t : List Exchange} {made : VirtioBlk}
    (h : (make place d).Goes t (.ok made))
    (hplays : Plays Simulation.answer s (t.map .asked) s') (hl : d.limits? = some l) :
    Engine.checkLimits d.volumeNameRef l = .ok () ∧ (s.volumes.find? d.volumeNameRef).isSome ∧
      makingLimits s place d = some (Engine.volumeLimits d.volumeNameRef l) := by
  have hpasses := asked_iff_passes h
  cases attempt_of_goes h with
  | attached =>
    replace hpasses := hpasses.1 (by simp)
    obtain ⟨hfree, hvolume, -⟩ := plays_attached hplays
    refine ⟨(passes_iff.1 hpasses).2 l hl, hvolume (by rw [hl]; rfl), ?_⟩
    rw [makingLimits_eq hpasses hfree hvolume, hl]
    rfl

/-- A device that is made is its draft under the name of its place. -/
theorem eq_of_made {t : List Exchange} {made : VirtioBlk}
    (h : Made registry inv place .virtioBlk d made t) : made = { d with name := place.name } := by
  cases h
  rfl

/-- A vhost controller that is there is deleted. -/
theorem plays_release {name : String} {t : List Exchange} {r : Except Fault Unit}
    {rest : List Event} (hrow : s.vhosts.find? (Name.ownId name) ≠ none)
    (h : (release name).Goes t r)
    (hplays : Plays Simulation.answer s (t.map .asked ++ rest) s') :
    r = .ok () ∧ ∃ s₁, SameVolumes s s₁ ∧ Plays Simulation.answer s₁ rest s' := by
  obtain ⟨answer, rfl, hr⟩ := goes_grant_iff.1 h
  rcases s.answer_deleteVhost (Attach.vhostRef (Name.ownId name)) with
    ⟨row, -, heq⟩ | ⟨e, hnone, -⟩
  · obtain ⟨rfl, hrest⟩ := plays_asked hplays heq
    refine ⟨?_, _, ?_, hrest⟩
    · rcases hr with ⟨-, hr⟩ | ⟨hno, -⟩
      · exact hr
      · exact absurd rfl hno
    · exact ⟨rfl, rfl⟩
  · exact absurd hnone hrow

/-- What is written when a device is dropped is in the engine afterwards. -/
theorem limits_of_unlimit {t : List Exchange} {r : Except Fault Unit} (h : (unlimit d).Goes t r)
    (hvolume : d.limits?.isSome → (s.volumes.find? d.volumeNameRef).isSome)
    (hplays : Plays Simulation.answer s (t.map .asked) s') :
    s'.limits = s.limitsAfter (droppingLimits d) := by
  rcases (goes_unlimit h).1 with ⟨hl, rfl⟩ | ⟨⟨l, hl⟩, undone, rfl⟩
  · obtain rfl : s' = s := hplays
    rw [droppingLimits, hl]
    rfl
  · rw [plays_unlimit hplays (hvolume (by rw [hl]; rfl)), droppingLimits, hl]
    rfl

/-- An operation that may make a device writes what the making writes, if there is none yet. -/
theorem limitsLeft_of_draft? {op : Operation .virtioBlk}
    (hop : op.draft? registry fresh = some (place, d)) :
    limitsLeft registry fresh inv s op =
      if (inv.find? .virtioBlk place.name).isSome then none else makingLimits s place d := by
  cases op with
  | create | update => simp only [limitsLeft, hop, Option.bind_some]
  | get | list | delete | stats => cases hop

/-- An operation that makes a device with limits writes exactly these. -/
theorem limitsLeft_of_made {op : Operation .virtioBlk} {events : List Event} {made : VirtioBlk}
    (hop : op.draft? registry fresh = some (place, d))
    (hnew : inv.find? .virtioBlk place.name = none)
    (h : (inv.perform registry fresh op).Goes events (.ok (.record made)))
    (hplays : Plays Simulation.answer s events s') (hl : d.limits? = some l) :
    Engine.checkLimits d.volumeNameRef l = .ok () ∧ (s.volumes.find? d.volumeNameRef).isSome ∧
      limitsLeft registry fresh inv s op = some (Engine.volumeLimits d.volumeNameRef l) := by
  obtain ⟨t, result, hmake, rfl, hresult⟩ := goes_of_draft? hop hnew rfl h
  obtain rfl : result = .ok made := by
    cases result <;> cases hresult
    rfl
  rw [plays_append] at hplays
  obtain ⟨s₁, hplays, -⟩ := hplays
  rw [limitsLeft_of_draft? hop, hnew]
  exact makingLimits_of_made hmake hplays hl

end VirtioBlks

/-! ## Worlds -/

namespace World

variable {w : World}

/-- The engine has the volume of every limited device that is kept. -/
def VolumesThere (w : World) : Prop :=
  ∀ name d, w.inventory.find? .virtioBlk name = some d → d.limits?.isSome →
    (w.engine.volumes.find? d.volumeNameRef).isSome

/-- A deletion of a device that is kept lifts the device's limits. -/
theorem limits_of_delete {request : DeleteRequest} {events : List Event} {r : Except Fault Unit}
    (hrooted : w.Rooted) (hvolumes : w.VolumesThere)
    (hkept : w.inventory.find? .virtioBlk request.name = some d)
    (h : (w.inventory.delete registry .virtioBlk request).Goes events r)
    (hplays : Plays Simulation.answer w.engine events s') :
    s'.limits = w.engine.limitsAfter (VirtioBlks.droppingLimits d) := by
  have hrow : w.engine.vhosts.find? (Name.ownId request.name) ≠ none := by
    obtain ⟨row, hrow, -⟩ := hrooted.vhosts.blksBacked.backed hkept
    rw [hrow]
    nofun
  rcases goes_delete_of_kept hkept h with ⟨why, hwhy, -, -⟩ | ⟨t, e, hgo, rfl, -⟩ |
    ⟨t, u, hgo, htidy, rfl, -⟩
  · rw [hrooted.vhosts.blksBacked.placed hkept, Check.required_compose] at hwhy
    cases hwhy
  · rw [← List.append_nil (t.map Event.asked)] at hplays
    cases (VirtioBlks.plays_release hrow hgo hplays).1
  · obtain ⟨-, s₁, ⟨hsame, hlimits⟩, htidied⟩ := VirtioBlks.plays_release hrow hgo hplays
    have hvolume : d.limits?.isSome → (s₁.volumes.find? d.volumeNameRef).isSome := by
      rw [hsame]
      exact hvolumes _ d hkept
    rw [VirtioBlks.limits_of_unlimit htidy hvolume htidied]
    cases VirtioBlks.droppingLimits d <;> simp [Engine.Simulation.limitsAfter, hlimits]

/-- What an operation on devices writes is in the engine afterwards. -/
theorem limits_of_perform {op : Operation .virtioBlk} {events : List Event}
    {r : Except Fault (Reply .virtioBlk)} (hrooted : w.Rooted) (hvolumes : w.VolumesThere)
    (h : (w.inventory.perform registry fresh op).Goes events r)
    (hplays : Plays Simulation.answer w.engine events s') :
    s'.limits =
      w.engine.limitsAfter (VirtioBlks.limitsLeft registry fresh w.inventory w.engine op) := by
  -- An operation that comes to no making and drops nothing writes nothing.
  have hidle (hmake : ∀ place d, op.draft? registry fresh = some (place, d) →
        w.inventory.find? .virtioBlk place.name ≠ none)
      (hdelete : ∀ request, op = .delete request →
        w.inventory.find? .virtioBlk request.name = none) :
      s'.limits = w.engine.limits := by
    have hspares := (way_of_goes h).spares_limits
      (fun place d hop hnew => absurd hnew (hmake place d hop))
      (fun request d hop hkept => by
        rw [hdelete request hop] at hkept
        cases hkept)
    exact (sameVolumes_of_plays hspares hplays).2
  cases hop : op.draft? registry fresh with
  | some draft =>
    obtain ⟨place, d⟩ := draft
    have hdelete (request : DeleteRequest) : op ≠ .delete request := by
      rintro rfl
      cases hop
    rw [VirtioBlks.limitsLeft_of_draft? hop]
    cases hfind : w.inventory.find? .virtioBlk place.name with
    | some kept =>
      refine hidle (fun place' d' hop' => ?_) fun request hrequest =>
        absurd hrequest (hdelete request)
      cases hop.symm.trans hop'
      rw [hfind]
      nofun
    | none =>
      obtain ⟨t, made, hgo, rfl, -⟩ := goes_of_draft? hop hfind rfl h
      rw [plays_append] at hplays
      obtain ⟨s₁, hmake, hkeep⟩ := hplays
      have hlimits := VirtioBlks.limits_of_make hgo hmake
      obtain rfl : s' = s₁ := by
        cases made <;> exact hkeep
      exact hlimits
  | none =>
    cases op with
    | delete request =>
      rw [VirtioBlks.limitsLeft]
      cases hfind : w.inventory.find? .virtioBlk request.name with
      | some d =>
        obtain ⟨result, hdelete, -⟩ := Procedure.goes_map_iff.1 h
        exact limits_of_delete hrooted hvolumes hfind hdelete hplays
      | none =>
        refine hidle (by simp [hop]) ?_
        rintro _ ⟨⟩
        exact hfind
    | create | update | get | list | stats =>
      rw [VirtioBlks.limitsLeft, hop]
      · exact hidle (by simp [hop]) nofun
      · nofun

/-- What an action writes is in the engine afterwards, and nothing else about limits changes. -/
theorem limits_act (hrooted : w.Rooted) (hvolumes : w.VolumesThere) (a : Action) :
    (w.act registry a).engine.limits = w.engine.limitsAfter (w.writes registry a) := by
  cases a with
  | version | put volume => rfl
  | take step =>
    obtain ⟨k, op, bits⟩ := step
    have hgo := Procedure.goes_run Simulation.answer
      (w.inventory.perform registry (Uuid.text bits) op) w.engine
    have hplays := Procedure.plays_run Simulation.answer
      (w.inventory.perform registry (Uuid.text bits) op) w.engine
    by_cases hk : k = .virtioBlk
    · subst hk
      exact limits_of_perform hrooted hvolumes hgo hplays
    · have hwrites : w.writes registry (.take ⟨k, op, bits⟩) = none := by
        cases k <;> first | rfl | exact absurd rfl hk
      rw [hwrites]
      exact (sameVolumes_of_plays ((way_of_goes hgo).spares_limits_of_ne hk) hplays).2

/-- A volume that the engine has it keeps. -/
theorem volume_act (a : Action) {volume : String}
    (h : (w.engine.volumes.find? volume).isSome) :
    ((w.act registry a).engine.volumes.find? volume).isSome := by
  cases a with
  | version => exact h
  | put row =>
    show ((w.engine.volumes.insert row.name row).find? volume).isSome
    rw [Table.find?_insert]
    split
    · rfl
    · exact h
  | take step =>
    have hplays := Procedure.plays_run Simulation.answer
      (w.inventory.perform registry step.fresh step.operation) w.engine
    show ((Procedure.run Simulation.answer _ w.engine).engine.volumes.find? volume).isSome
    rw [volumes_of_plays hplays]
    exact h

/-- A device that is kept after an action has the limits and the volume of one that was kept before,
or the action has made it, and has written its limits if it has any. -/
theorem device_origin {a : Action} {name : String}
    (hafter : (w.act registry a).inventory.find? .virtioBlk name = some d) :
    (∃ kept, w.inventory.find? .virtioBlk name = some kept ∧ d.limits? = kept.limits? ∧
        d.volumeNameRef = kept.volumeNameRef) ∨
      (w.inventory.find? .virtioBlk name = none ∧ ∀ l, d.limits? = some l →
        Engine.checkLimits d.volumeNameRef l = .ok () ∧
          (w.engine.volumes.find? d.volumeNameRef).isSome ∧
            w.writes registry a = some (Engine.volumeLimits d.volumeNameRef l)) := by
  cases a with
  | version | put volume => exact .inl ⟨d, hafter, rfl, rfl⟩
  | take step =>
    obtain ⟨k, op, bits⟩ := step
    have hgo := Procedure.goes_run Simulation.answer
      (w.inventory.perform registry (Uuid.text bits) op) w.engine
    have hplays := Procedure.plays_run Simulation.answer
      (w.inventory.perform registry (Uuid.text bits) op) w.engine
    by_cases hk : k = .virtioBlk
    · subst hk
      rcases (turn_of_goes hgo).origin hafter with ⟨kept, hkept, hcontinues⟩ |
        ⟨place, draft, hop, rfl, hmade, hnew, hresult⟩
      · have hsame : d.SameIdentity kept := hcontinues.identity
        refine .inl ⟨kept, hkept, ?_, hsame.volumeNameRef⟩
        rw [VirtioBlk.limits?, hsame.maxLimit]
        rfl
      · refine .inr ⟨hnew, fun l hl => ?_⟩
        rw [hresult] at hgo
        obtain rfl := VirtioBlks.eq_of_made hmade
        have hwritten := VirtioBlks.limitsLeft_of_made (l := l) hop hnew hgo hplays hl
        exact hwritten
    · refine .inl ⟨d, ?_, rfl, rfl⟩
      have htable := (turn_of_goes hgo).table_of_ne (Ne.symm hk)
      rw [Inventory.find?, ← htable]
      exact hafter

/-- The engine still has the volumes of the limited devices after an action. -/
theorem VolumesThere.act (h : w.VolumesThere) (a : Action) :
    (w.act registry a).VolumesThere := by
  intro name d hafter hlimited
  rcases device_origin hafter with ⟨kept, hkept, hlimits, hvolume⟩ | ⟨-, hmade⟩
  · rw [hvolume]
    rw [hlimits] at hlimited
    exact volume_act a (h name kept hkept hlimited)
  · obtain ⟨l, hl⟩ := Option.isSome_iff_exists.1 hlimited
    exact volume_act a (hmade l hl).2.1

theorem volumesThere_after (registry : Attach.Registry) (actions : List Action) :
    (after registry actions).VolumesThere :=
  invariant (fun _ _ h => by cases h) (fun _ a h => h.act a) actions

/-! ## Runs -/

/-- The limits are what is set on the volume. -/
def InForce (w : World) (volume : String) (l : Limits) : Prop :=
  ∃ row, w.engine.limits.find? volume = some row ∧ row.Sets volume l

/-- An action writes something on a volume. -/
def WritesOn (registry : Attach.Registry) (w : World) (a : Action) (volume : String) : Prop :=
  ∃ row, w.writes registry a = some row ∧ row.name = volume

/-- An action writes something else than the limits on a volume. -/
def Overrides (registry : Attach.Registry) (w : World) (a : Action) (volume : String)
    (l : Limits) : Prop :=
  ∃ row, w.writes registry a = some row ∧ row.name = volume ∧ ¬ row.Sets volume l

/-- While a device was kept, one of the actions has written something else than the limits on a
volume, and none has written there since. -/
inductive Overridden (registry : Attach.Registry) (name volume : String) (l : Limits) :
    List Action → Prop
  | now {actions : List Action} {a : Action}
      (hkept : ((after registry actions).inventory.find? .virtioBlk name).isSome)
      (hother : (after registry actions).Overrides registry a volume l) :
      Overridden registry name volume l (actions ++ [a])
  | still {actions : List Action} {a : Action} (h : Overridden registry name volume l actions)
      (hnothing : ¬ (after registry actions).WritesOn registry a volume) :
      Overridden registry name volume l (actions ++ [a])

theorem not_overridden_nil {name volume : String} :
    ¬ Overridden registry name volume l [] := by
  generalize hall : ([] : List Action) = all
  rintro (_ | _) <;> simp at hall

theorem overridden_concat {actions : List Action} {a : Action} {name volume : String} :
    Overridden registry name volume l (actions ++ [a]) ↔
      (((after registry actions).inventory.find? .virtioBlk name).isSome ∧
          (after registry actions).Overrides registry a volume l) ∨
        (Overridden registry name volume l actions ∧
          ¬ (after registry actions).WritesOn registry a volume) := by
  constructor
  · intro h
    generalize hall : actions ++ [a] = all at h
    cases h with
    | now hkept hother =>
      obtain ⟨rfl, ⟨⟩⟩ := List.append_inj' hall rfl
      exact .inl ⟨hkept, hother⟩
    | still h hnothing =>
      obtain ⟨rfl, ⟨⟩⟩ := List.append_inj' hall rfl
      exact .inr ⟨h, hnothing⟩
  · rintro (⟨hkept, hother⟩ | ⟨h, hnothing⟩)
    · exact .now hkept hother
    · exact .still h hnothing

/-- What an action writes on a volume is in force there. -/
theorem inForce_act_iff_sets (hrooted : w.Rooted) (hvolumes : w.VolumesThere) {a : Action}
    {row : VolumeLimits} (hwrites : w.writes registry a = some row) :
    (w.act registry a).InForce row.name l ↔ row.Sets row.name l := by
  rw [InForce, limits_act hrooted hvolumes, hwrites, Engine.Simulation.limitsAfter,
    Table.find?_insert_self]
  simp

/-- When nothing is written on a volume, what is in force there stays. -/
theorem inForce_act_iff (hrooted : w.Rooted) (hvolumes : w.VolumesThere) {a : Action}
    {volume : String} (hnothing : ¬ w.WritesOn registry a volume) :
    (w.act registry a).InForce volume l ↔ w.InForce volume l := by
  rw [InForce, InForce, limits_act hrooted hvolumes]
  cases hwrites : w.writes registry a with
  | none => rfl
  | some row =>
    have hother : volume ≠ row.name := by
      rintro rfl
      exact hnothing ⟨row, hwrites, rfl⟩
    rw [Engine.Simulation.limitsAfter, Table.find?_insert_of_ne _ hother]

/-- After any actions, the limits of a device that is kept are in force on its volume exactly if
they can be told in operations per second and have not been overridden since the device was made. -/
theorem after_inForce_iff (registry : Attach.Registry) (actions : List Action) (name : String)
    (d : VirtioBlk) (l : Limits)
    (hkept : (after registry actions).inventory.find? .virtioBlk name = some d)
    (hl : d.limits? = some l) :
    (after registry actions).InForce d.volumeNameRef l ↔
      l.rwIopsKiops.toInt * 1000 ≤ Int64.maxValue.toInt ∧
        ¬ Overridden registry name d.volumeNameRef l actions := by
  -- By induction on the actions, the last one apart: it makes the device, or the device was kept
  -- before and the action writes on its volume or does not.
  induction actions using List.reverseRecOn generalizing d with
  | nil => cases hkept
  | append_singleton actions a ih =>
    have hrooted := rooted_after registry actions
    have hvolumes := volumesThere_after registry actions
    rw [overridden_concat]
    rw [after_concat] at hkept ⊢
    rcases device_origin hkept with ⟨kept, hbefore, hlimits, hvolume⟩ | ⟨hnew, hmade⟩
    · replace ih := ih kept hbefore (hlimits ▸ hl)
      rw [← hvolume] at ih
      by_cases hwrites : (after registry actions).WritesOn registry a d.volumeNameRef
      · obtain ⟨row, hrow, hname⟩ := hwrites
        have hforce := inForce_act_iff_sets (l := l) hrooted hvolumes hrow
        rw [hname] at hforce
        rw [hforce]
        constructor
        · intro hsets
          refine ⟨hsets.fits, ?_⟩
          rintro (⟨-, row', hrow', -, hother⟩ | ⟨-, hnothing⟩)
          · cases hrow.symm.trans hrow'
            exact hother hsets
          · exact hnothing ⟨row, hrow, hname⟩
        · rintro ⟨-, hnot⟩
          by_contra hother
          exact hnot (.inl ⟨Option.isSome_of_eq_some hbefore, row, hrow, hname, hother⟩)
      · have hnot : ¬ (after registry actions).Overrides registry a d.volumeNameRef l := by
          rintro ⟨row, hrow, hname, -⟩
          exact hwrites ⟨row, hrow, hname⟩
        rw [inForce_act_iff hrooted hvolumes hwrites, ih]
        simp [hnot, hwrites]
    · obtain ⟨hcheck, -, hwrites⟩ := hmade l hl
      have hwritten : (after registry actions).WritesOn registry a d.volumeNameRef :=
        ⟨_, hwrites, rfl⟩
      have hforce := inForce_act_iff_sets (l := l) hrooted hvolumes hwrites
      refine hforce.trans ?_
      rw [show (Engine.volumeLimits d.volumeNameRef l).name = d.volumeNameRef from rfl,
        Engine.sets_volumeLimits_iff hcheck]
      simp [hnew, hwritten]

/-- Two devices with the same limits are made on one volume, and the second one is deleted. -/
def sharing : List Action :=
  let limited : VirtioBlk := { volumeNameRef := "Malloc0", maxLimit := some { rwIopsKiops := 1 } }
  [.put { name := "Malloc0" }, .take ⟨.virtioBlk, .create "" limited "a", 0⟩,
   .take ⟨.virtioBlk, .create "" limited "b", 0⟩,
   .take ⟨.virtioBlk, .delete { name := "//storage.bridge.dev/virtioBlks/b" }, 0⟩]

/-- As long as the first device is alone on its volume, its limits are in force. -/
theorem inForce_alone :
    (after {} (sharing.take 2)).InForce "Malloc0" { rwIopsKiops := 1 } := by
  have hkept : (after {} (sharing.take 2)).inventory.find? .virtioBlk
      "//storage.bridge.dev/virtioBlks/a" = some
        { name := "//storage.bridge.dev/virtioBlks/a"
          volumeNameRef := "Malloc0"
          maxLimit := some { rwIopsKiops := 1 } } := by
    decide +kernel
  have hnew : (after {} (sharing.take 1)).inventory.find? .virtioBlk
      "//storage.bridge.dev/virtioBlks/a" = none := by
    decide +kernel
  refine (after_inForce_iff {} (sharing.take 2) _ _ _ hkept rfl).2 ⟨by decide, ?_⟩
  -- The last action makes the device, so that none can have overridden its limits.
  rw [show sharing.take 2 = ([] ++ sharing.take 1) ++ (sharing.take 2).drop 1 from rfl]
  intro h
  rcases overridden_concat.1 h with ⟨hkept, -⟩ | ⟨h, -⟩
  · rw [show [] ++ sharing.take 1 = sharing.take 1 from rfl, hnew] at hkept
    cases hkept
  · rcases overridden_concat.1 h with ⟨⟨⟩, -⟩ | ⟨h, -⟩
    exact not_overridden_nil h

/-- The first device is still kept with its limits, but they are not in force any more. -/
theorem not_inForce_sharing :
    ((after {} sharing).inventory.virtioBlks.find? "//storage.bridge.dev/virtioBlks/a").map
        (fun d => (d.volumeNameRef, d.limits?)) = some ("Malloc0", some { rwIopsKiops := 1 }) ∧
      ¬ (after {} sharing).InForce "Malloc0" { rwIopsKiops := 1 } := by
  refine ⟨by decide +kernel, ?_⟩
  have hlifted : (after {} sharing).engine.limits.find? "Malloc0" = some { name := "Malloc0" } := by
    decide +kernel
  rintro ⟨row, hrow, hsets⟩
  rw [hlifted] at hrow
  cases hrow
  exact absurd hsets.operations (by decide)

end World

end StorageControl
