/-
# What is taken back when a creation fails

A creation that has had an effect on the engine and fails after it takes the effect back: a
subsystem that cannot be finished is deleted again, and the limits of a device that is not made are
lifted from its volume. That is the last call, and whatever the engine answers to it, the first
fault stays.
-/
import StorageControl.Proofs.Attach
import StorageControl.Proofs.Journal

namespace StorageControl

open Engine (Answer Call Method Script)
open Engine.Script

/-! ## Subsystems -/

namespace Subsystems

/-- The call that makes a subsystem. -/
def creationCall (s : Subsystem) : Call :=
  Method.createSubsystem.on Engine.CreateSubsystem.codec (creation s.spec)

/-- How the making of a subsystem goes: what is asked and answered, and what comes of it. -/
inductive Attempt (place : Place) (s : Subsystem) :
    List Exchange → Except Fault Subsystem → Prop
  /-- Its qualified name is taken. -/
  | rejected (why : Rejection) : Attempt place s [] (.error (.rejected why))
  /-- The engine does not make it. -/
  | refused {answer : Answer} (hanswer : answer ≠ .ok (.bool true)) :
      Attempt place s [⟨creationCall s, answer⟩]
        (.error (denial .createSubsystem .flag (.createSubsystem s.spec.nqn) answer))
  /-- Its host may not connect. -/
  | hostless {host : String} {answer : Answer} (undone : Answer)
      (hhost : s.spec.hostnqn = some host) (hanswer : answer ≠ .ok (.bool true)) :
      Attempt place s
        [.granted (creationCall s), ⟨hostCall s.spec host, answer⟩,
          ⟨removalCall s.spec.nqn, undone⟩]
        (.error (denial .addHost .flag (.addHost host s.spec.nqn) answer))
  /-- The engine does not tell its version. -/
  | versionless {answer : Answer} {e : Fault} (undone : Answer)
      (hanswer : answer.decode Method.getVersion.name Engine.Version.codec = .error e) :
      Attempt place s
        (.granted (creationCall s) :: (hosting s.spec ++
          [⟨⟨.getVersion, none⟩, answer⟩, ⟨removalCall s.spec.nqn, undone⟩])) (.error e)
  /-- It is finished. -/
  | finished {answer : Answer} {version : Engine.Version}
      (hanswer : answer.read? Engine.Version.codec = some version) :
      Attempt place s
        (.granted (creationCall s) :: (hosting s.spec ++ [⟨⟨.getVersion, none⟩, answer⟩]))
        (.ok { s with name := place.name, status := some ⟨version.version⟩ })

theorem attempt_of_goes {inv : Inventory} {place : Place} {s : Subsystem} {t : List Exchange}
    {r : Except Fault Subsystem} (h : (make inv place s).Goes t r) : Attempt place s t r := by
  rcases goes_check_bind_iff.1 h with ⟨why, -, rfl, rfl⟩ | ⟨_, -, hcreate⟩
  · exact .rejected why
  obtain ⟨answer, rest, rfl, ⟨rfl, hrest⟩ | ⟨hno, rfl, rfl⟩⟩ := goes_grant_bind_iff.1 hcreate
  · obtain ⟨result, t₁, t₂, hfinish, hend, rfl⟩ := goes_attempt_bind_iff.1 hrest
    rcases goes_finish hfinish with ⟨answer, version, hread, rfl, rfl⟩ |
      ⟨answer, e, hdecode, rfl, rfl⟩ | ⟨host, answer, hhost, hno, rfl, rfl⟩
    · obtain ⟨rfl, rfl⟩ := goes_done_iff.1 hend
      rw [List.append_nil]
      exact .finished hread
    · obtain ⟨undone, rfl, rfl⟩ := goes_undo hend
      rw [List.append_assoc]
      exact .versionless undone hdecode
    · obtain ⟨undone, rfl, rfl⟩ := goes_undo hend
      exact .hostless undone hhost hno
  · exact .refused hno

/-- The engine has made a subsystem, but its host may not connect or the engine does not tell its
version, which is a fault. -/
inductive Unfinished (s : Subsystem) (t : List Exchange) : Fault → Prop
  | host {host : String} {answer : Answer} (hmade : .granted (creationCall s) ∈ t)
      (hhost : s.spec.hostnqn = some host) (hasked : ⟨hostCall s.spec host, answer⟩ ∈ t)
      (hanswer : answer ≠ .ok (.bool true)) :
      Unfinished s t (denial .addHost .flag (.addHost host s.spec.nqn) answer)
  | version {answer : Answer} {e : Fault} (hmade : .granted (creationCall s) ∈ t)
      (hasked : ⟨⟨.getVersion, none⟩, answer⟩ ∈ t)
      (hanswer : answer.decode Method.getVersion.name Engine.Version.codec = .error e) :
      Unfinished s t e

theorem Unfinished.made {s : Subsystem} {t : List Exchange} {why : Fault}
    (h : Unfinished s t why) : .granted (creationCall s) ∈ t := by
  cases h <;> assumption

namespace Attempt

variable {place : Place} {s : Subsystem} {t : List Exchange} {r : Except Fault Subsystem}

end Attempt

end Subsystems

/-! ## Devices -/

namespace VirtioBlks

/-- The call that puts limits on the volume of a device. -/
def limitCall (d : VirtioBlk) (l : Limits) : Call :=
  Method.setLimits.on Engine.VolumeLimits.codec (Engine.volumeLimits d.volumeNameRef l)

/-- The call that lifts the limits of a device from its volume. -/
def unlimitCall (d : VirtioBlk) : Call :=
  Method.setLimits.on Engine.VolumeLimits.codec { name := d.volumeNameRef }

/-- The call that makes the vhost controller of a device. -/
def attachCall (place : Place) (d : VirtioBlk) : Call :=
  Method.createBlkController.on Engine.CreateBlkController.codec
    { ctrlr := place.id, devName := d.volumeNameRef }

/-- The engine puts the limits of a device on its volume, if it has any. -/
def limiting (d : VirtioBlk) : List Exchange :=
  match d.limits? with
  | none => []
  | some l => [.granted (limitCall d l)]

/-- The engine is asked to lift the limits of a device from its volume, if it has any. -/
def Lifting (d : VirtioBlk) (t : List Exchange) : Prop :=
  (d.limits? = none ∧ t = []) ∨
    ((∃ l, d.limits? = some l) ∧ ∃ answer, t = [⟨unlimitCall d, answer⟩])

/-- How the making of a device goes: what is asked and answered, and what comes of it. -/
inductive Attempt (place : Place) (d : VirtioBlk) :
    List Exchange → Except Fault VirtioBlk → Prop
  /-- The device or its limits are rejected. -/
  | rejected (why : Rejection) : Attempt place d [] (.error (.rejected why))
  /-- The engine does not limit the volume. -/
  | unlimited {l : Limits} {answer : Answer} (hlimits : d.limits? = some l)
      (hanswer : answer ≠ .ok (.bool true)) :
      Attempt place d [⟨limitCall d l, answer⟩]
        (.error (denial .setLimits .flag (.setLimits d.volumeNameRef) answer))
  /-- The engine does not make the vhost controller. -/
  | detached {answer : Answer} {lifting : List Exchange} (hanswer : answer ≠ .ok (.bool true))
      (hlifting : Lifting d lifting) :
      Attempt place d (limiting d ++ ⟨attachCall place d, answer⟩ :: lifting)
        (.error (denial .createBlkController .flag (.createVirtioBlk place.name) answer))
  /-- It does. -/
  | attached : Attempt place d (limiting d ++ [.granted (attachCall place d)])
      (.ok { d with name := place.name })

theorem goes_limit {d : VirtioBlk} {t : List Exchange} {r : Except Fault Unit}
    (h : (limit d).Goes t r) :
    (t = limiting d ∧ r = .ok () ∧
        ∀ l, d.limits? = some l → Engine.checkLimits d.volumeNameRef l = .ok ()) ∨
      (∃ l why, d.limits? = some l ∧ Engine.checkLimits d.volumeNameRef l = .error why ∧
        t = [] ∧ r = .error (.rejected why)) ∨
      ∃ l answer, d.limits? = some l ∧ Engine.checkLimits d.volumeNameRef l = .ok () ∧
        answer ≠ .ok (.bool true) ∧ t = [⟨limitCall d l, answer⟩] ∧
          r = .error (denial .setLimits .flag (.setLimits d.volumeNameRef) answer) := by
  unfold limit at h
  cases hlimits : d.limits? with
  | none =>
    rw [hlimits] at h
    obtain ⟨rfl, rfl⟩ := goes_done_iff.1 h
    exact .inl ⟨by simp [limiting, hlimits], rfl, nofun⟩
  | some l =>
    rw [hlimits] at h
    rcases goes_check_bind_iff.1 h with ⟨why, hwhy, rfl, rfl⟩ | ⟨_, hcheck, hset⟩
    · exact .inr (.inl ⟨l, why, rfl, hwhy, rfl, rfl⟩)
    obtain ⟨answer, rfl, ⟨rfl, rfl⟩ | ⟨hno, rfl⟩⟩ := goes_grant_iff.1 hset
    · refine .inl ⟨by simp [limiting, hlimits, limitCall, Exchange.granted], rfl, ?_⟩
      rintro _ ⟨⟩
      exact hcheck
    · exact .inr (.inr ⟨l, answer, rfl, hcheck, hno, rfl, rfl⟩)

theorem goes_unlimit {d : VirtioBlk} {t : List Exchange} {r : Except Fault Unit}
    (h : (unlimit d).Goes t r) : Lifting d t ∧ r = .ok () := by
  unfold unlimit at h
  cases hlimits : d.limits? with
  | none =>
    rw [hlimits] at h
    obtain ⟨rfl, rfl⟩ := goes_done_iff.1 h
    exact ⟨.inl ⟨hlimits, rfl⟩, rfl⟩
  | some l =>
    rw [hlimits] at h
    obtain ⟨_, t₁, t₂, hlift, hend, rfl⟩ := goes_attempt_bind_iff.1 h
    obtain ⟨rfl, rfl⟩ := goes_done_iff.1 hend
    obtain ⟨answer, rfl, -⟩ := goes_grant_iff.1 hlift
    exact ⟨.inr ⟨⟨l, hlimits⟩, answer, rfl⟩, rfl⟩

theorem attempt_of_goes {place : Place} {d : VirtioBlk} {t : List Exchange}
    {r : Except Fault VirtioBlk} (h : (make place d).Goes t r) : Attempt place d t r := by
  rcases goes_check_bind_iff.1 h with ⟨why, -, rfl, rfl⟩ | ⟨params, hparams, hmake⟩
  · exact .rejected why
  obtain ⟨hid, hvolume⟩ := Attach.eq_of_blkController hparams
  obtain rfl : params = { ctrlr := place.id, devName := d.volumeNameRef } := by
    cases params
    cases hid
    cases hvolume
    rfl
  rcases goes_bind_iff.1 hmake with ⟨e, hlimit, rfl⟩ | ⟨_, before, rest, hlimit, hrest, rfl⟩
  · rcases goes_limit hlimit with ⟨-, hr, -⟩ | ⟨_, why, -, -, rfl, hr⟩ |
      ⟨l, answer, hlimits, -, hno, rfl, hr⟩
    · cases hr
    · cases hr
      exact .rejected why
    · cases hr
      exact .unlimited hlimits hno
  rcases goes_limit hlimit with ⟨rfl, -⟩ | ⟨_, _, -, -, -, hr⟩ | ⟨_, _, -, -, -, -, hr⟩
  · obtain ⟨result, t₁, t₂, hattach, hend, rfl⟩ := goes_attempt_bind_iff.1 hrest
    obtain ⟨answer, rfl, ⟨rfl, rfl⟩ | ⟨hno, rfl⟩⟩ := goes_grant_iff.1 hattach
    · obtain ⟨rfl, rfl⟩ := goes_done_iff.1 hend
      exact .attached
    · rcases goes_bind_iff.1 hend with ⟨e, hlift, -⟩ | ⟨_, after, t₃, hlift, hfail, rfl⟩
      · cases (goes_unlimit hlift).2
      · obtain ⟨rfl, rfl⟩ := goes_failed_iff.1 hfail
        rw [List.append_nil]
        exact .detached hno (goes_unlimit hlift).1
  · cases hr
  · cases hr

namespace Attempt

variable {place : Place} {d : VirtioBlk} {t : List Exchange} {r : Except Fault VirtioBlk}
  {x y : Exchange}

theorem limiting_eq {l : Limits} (h : d.limits? = some l) :
    limiting d = [.granted (limitCall d l)] := by
  rw [limiting, h]

end Attempt

end VirtioBlks

/-! ## Creations -/

/-- Creating a record asks nothing, or it is an attempt at making the record in its place. When that
fails the record is not kept. -/
theorem course_of_create {σ : Type} (registry : Attach.Registry) (engine : σ → Call → Answer × σ)
    (s : σ) (fresh : String) (inv : Inventory) (k : Kind) (parent : String) (record : k.Record)
    (id : String) :
    let course := (inv.create registry k fresh parent record id).run engine s
    exchanges course.events = [] ∨ ∃ place,
      (k.family registry).place fresh parent record id = .ok place ∧
        ((k.family registry).make inv place record).Goes (exchanges course.events) course.result ∧
        ∀ e, course.result = .error e → (inv.after course.events).find? k place.name = none := by
  intro course
  have hgoes := Procedure.goes_run engine (inv.create registry k fresh parent record id) s
  rcases goes_create hgoes with ⟨hnil, -⟩ | ⟨place, t, hplace, hfind, hgo, hevents⟩
  · exact .inl (congrArg exchanges hnil)
  · refine .inr ⟨place, hplace, ?_⟩
    replace hevents : course.events = t.map .asked ++ keeping place.name course.result := hevents
    have ht : exchanges course.events = t := by
      rw [hevents, exchanges_append, exchanges_map_asked]
      cases course.result <;> simp [keeping]
    rw [ht]
    refine ⟨hgo, fun e he => ?_⟩
    rw [hevents, he, keeping, List.append_nil, Inventory.after_map_asked]
    exact hfind

end StorageControl
