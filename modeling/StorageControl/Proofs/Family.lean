/-
# What the families ask of the engine

A new record comes with calls that make its object in the engine, and a record that goes takes its
object with it. Here is, for every kind, which exchanges these are when all goes well, how far they
get otherwise, and which call removes the object of a record. All other calls leave the engine's
objects as they are.
-/
import StorageControl.Inventory.Operation
import StorageControl.Proofs.Course

namespace StorageControl

open Engine (Answer Call Method Script)
open Engine.Script

/-! ## Calls and exchanges -/

/-- The call of a method with parameters. -/
abbrev Engine.Method.on {α : Type} (m : Method) (c : Codec α) (params : α) : Call :=
  ⟨m, some (c.encode params)⟩

/-- A method that only asks. -/
def Engine.Method.isQuery : Method → Bool
  | .getVersion | .getSubsystems | .getTargetStats | .getVolumeStats | .getVhostControllers => true
  | _ => false

/-- A method that leaves the engine's objects as they are: it reads, or limits a volume. -/
def Engine.Method.keepsObjects : Method → Bool
  | .getVersion | .getSubsystems | .getTargetStats | .getVolumeStats | .getVhostControllers
  | .setLimits => true
  | _ => false

theorem Engine.Method.keepsObjects_of_isQuery {m : Method} (h : m.isQuery = true) :
    m.keepsObjects = true := by
  cases m <;> first | rfl | cases h

/-- The engine grants a call. -/
def Exchange.granted (call : Call) : Exchange :=
  ⟨call, .ok (.bool true)⟩

/-- No call of the exchanges makes or removes an object of the engine. -/
def KeepsObjects (t : List Exchange) : Prop :=
  ∀ x ∈ t, x.request.method.keepsObjects = true

@[simp] theorem keepsObjects_nil : KeepsObjects [] := by
  simp [KeepsObjects]

theorem KeepsObjects.append {l m : List Exchange} (hl : KeepsObjects l) (hm : KeepsObjects m) :
    KeepsObjects (l ++ m) := by
  intro x hx
  rcases List.mem_append.1 hx with hx | hx
  · exact hl x hx
  · exact hm x hx

/-- Whatever the engine answers, the script leaves the engine's objects as they are. -/
abbrev Engine.Script.Reads {α : Type} (x : Script α) : Prop :=
  Asks (fun call => call.method.keepsObjects = true) x

/-- Whatever the engine answers, the script only asks. -/
abbrev Engine.Script.Queries {α : Type} (x : Script α) : Prop :=
  Asks (fun call => call.method.isQuery = true) x

theorem Engine.Script.Queries.reads {α : Type} {x : Script α} (h : Queries x) : Reads x :=
  h.mono fun _ => Method.keepsObjects_of_isQuery

/-! ## Making -/

/-- The call that makes the object of a new record, if the record can be attached. -/
def creation (registry : Attach.Registry) (inv : Inventory) (place : Place) :
    (k : Kind) → k.Record → Option Call
  | .subsystem, s =>
    some (Method.createSubsystem.on Engine.CreateSubsystem.codec (Subsystems.creation s.spec))
  | .controller, c => do
    let s ← inv.find? .subsystem place.parent
    let c := { c with name := place.name, spec.subsystemNameRef := place.parent }
    let listener ← (registry.listener c s).toOption
    some (Method.addListener.on Engine.Listener.codec listener)
  | .nvmeNamespace, n => do
    let s ← inv.find? .subsystem place.parent
    some (Method.addNamespace.on Engine.AddNamespace.codec
      (Namespaces.attachment s.spec.nqn n.spec))
  | .virtioBlk, d => do
    let params ← (Attach.blkController place.id d).toOption
    some (Method.createBlkController.on Engine.CreateBlkController.codec params)
  | .scsiController, c => do
    let params ← (Attach.scsiController place.id c).toOption
    some (Method.createScsiController.on Engine.VhostRef.codec params)
  | .scsiLun, l => do
    let _ ← inv.find? .scsiController place.parent
    some (Method.addTarget.on Engine.AddTarget.codec
      { ctrlr := Name.ownId place.parent
        scsiTargetNum := l.targetNum
        bdevName := l.volumeNameRef })

/-- The call of a creation makes an object. -/
theorem method_of_creation {registry : Attach.Registry} {inv : Inventory} {place : Place}
    {k : Kind} {draft : k.Record} {call : Call}
    (h : creation registry inv place k draft = some call) :
    call.method.keepsObjects = false := by
  cases k with
  | subsystem =>
    cases h
    rfl
  | controller =>
    obtain ⟨s, -, h⟩ := Option.bind_eq_some_iff.1 h
    obtain ⟨listener, -, ⟨⟩⟩ := Option.bind_eq_some_iff.1 h
    rfl
  | nvmeNamespace | virtioBlk | scsiController | scsiLun =>
    obtain ⟨_, -, ⟨⟩⟩ := Option.bind_eq_some_iff.1 h
    rfl

/-- The answer is true. -/
def Engine.Answer.isTrue (answer : Answer) : Bool :=
  answer.read? .flag == some true

theorem Engine.Answer.isTrue_iff {answer : Answer} :
    answer.isTrue = true ↔ answer = .ok (.bool true) := by
  rw [isTrue, beq_iff_eq, Answer.read?_flag_eq_some_iff]

/-- The answer says that an object of the kind has been made: it is true, or the number of the
object. -/
def Engine.Answer.affirms (answer : Answer) : Kind → Bool
  | .nvmeNamespace => (answer.read? .int32).any fun n => decide (n > 0)
  | .scsiLun => (answer.read? .int32).any fun n => decide (n ≥ 0)
  | _ => answer.isTrue

theorem Engine.Answer.affirms_eq_false_of_ne {answer : Answer} {k : Kind}
    (hn : k ≠ .nvmeNamespace) (hl : k ≠ .scsiLun) (h : answer ≠ .ok (.bool true)) :
    answer.affirms k = false := by
  have hfalse : answer.isTrue = false := by
    rw [Bool.eq_false_iff, Ne, isTrue_iff]
    exact h
  cases k <;> first | exact absurd rfl hn | exact absurd rfl hl | exact hfalse

/-- The call that lets a host connect to a subsystem. -/
def Subsystems.hostCall (spec : SubsystemSpec) (host : String) : Call :=
  Method.addHost.on Engine.AddHost.codec { nqn := spec.nqn, host, psk := spec.psk }

/-- The engine lets the host of a subsystem connect, if it has one. -/
def Subsystems.hosting (spec : SubsystemSpec) : List Exchange :=
  match spec.hostnqn with
  | none => []
  | some host => [.granted (hostCall spec host)]

/-- The call that removes a subsystem. -/
def Subsystems.removalCall (nqn : String) : Call :=
  Method.deleteSubsystem.on Engine.SubsystemRef.codec ⟨nqn⟩

/-- The engine makes the object of a draft with the given exchanges, and the record to be kept comes
of it. A number of the record is the one that the engine answers. -/
inductive Made (registry : Attach.Registry) (inv : Inventory) (place : Place) :
    (k : Kind) → (draft made : k.Record) → List Exchange → Prop
  | subsystem {s : Subsystem} {answer : Answer} {version : Engine.Version}
      (hversion : answer.read? Engine.Version.codec = some version)
      (hunowned : Subsystems.checkUnowned inv s.spec.nqn = .ok ()) :
      Made registry inv place .subsystem s
        { s with name := place.name, status := some ⟨version.version⟩ }
        (.granted (Method.createSubsystem.on Engine.CreateSubsystem.codec
          (Subsystems.creation s.spec)) :: Subsystems.hosting s.spec ++
            [⟨⟨.getVersion, none⟩, answer⟩])
  | controller {c : Controller} {s : Subsystem} {listener : Engine.Listener}
      (hparent : inv.find? .subsystem place.parent = some s)
      (hlistener : registry.listener
        { c with name := place.name, spec.subsystemNameRef := place.parent } s = .ok listener) :
      Made registry inv place .controller c
        { c with
          name := place.name
          spec.subsystemNameRef := place.parent
          status := some ⟨true⟩ }
        [.granted (Method.addListener.on Engine.Listener.codec listener)]
  | nvmeNamespace {n : NvmeNamespace} {s : Subsystem} {answer : Answer} {nsid : Int32}
      (hparent : inv.find? .subsystem place.parent = some s)
      (hnsid : answer.read? .int32 = some nsid) (hpos : 0 < nsid) :
      Made registry inv place .nvmeNamespace n
        { n with
          name := place.name
          spec.subsystemNameRef := place.parent
          spec.hostNsid := nsid
          status := some ⟨.enabled⟩ }
        [⟨Method.addNamespace.on Engine.AddNamespace.codec
          (Namespaces.attachment s.spec.nqn n.spec), answer⟩]
  | virtioBlk {d : VirtioBlk} {params : Engine.CreateBlkController} {before : List Exchange}
      (hparams : Attach.blkController place.id d = .ok params) (hbefore : KeepsObjects before) :
      Made registry inv place .virtioBlk d { d with name := place.name }
        (before ++
          [.granted (Method.createBlkController.on Engine.CreateBlkController.codec params)])
  | scsiController {c : ScsiController} {params : Engine.VhostRef}
      (hparams : Attach.scsiController place.id c = .ok params) :
      Made registry inv place .scsiController c { c with name := place.name }
        [.granted (Method.createScsiController.on Engine.VhostRef.codec params)]
  | scsiLun {l : ScsiLun} {c : ScsiController} {answer : Answer} {target : Int32}
      (hparent : inv.find? .scsiController place.parent = some c)
      (htarget : answer.read? .int32 = some target) (hnonneg : 0 ≤ target) :
      Made registry inv place .scsiLun l
        { l with name := place.name, controllerNameRef := place.parent, targetNum := target }
        [⟨Method.addTarget.on Engine.AddTarget.codec
          { ctrlr := Name.ownId place.parent
            scsiTargetNum := l.targetNum
            bdevName := l.volumeNameRef }, answer⟩]

/-- The object of a draft has not been made, or it has been and was to be removed again. -/
inductive Unmade (registry : Attach.Registry) (inv : Inventory) (place : Place) :
    (k : Kind) → (draft : k.Record) → List Exchange → Prop
  /-- The engine has not been asked to make it. -/
  | unasked {k : Kind} {draft : k.Record} {t : List Exchange} (ht : KeepsObjects t) :
      Unmade registry inv place k draft t
  /-- The engine has not made it. -/
  | refused {k : Kind} {draft : k.Record} {call : Call} {answer : Answer}
      {before after : List Exchange} (hcall : creation registry inv place k draft = some call)
      (hanswer : answer.affirms k = false) (hbefore : KeepsObjects before)
      (hafter : KeepsObjects after) :
      Unmade registry inv place k draft (before ++ ⟨call, answer⟩ :: after)
  /-- The host of a subsystem may not connect. -/
  | hostless {s : Subsystem} {host : String} {answer undone : Answer}
      (hhost : s.spec.hostnqn = some host) (hanswer : answer ≠ .ok (.bool true)) :
      Unmade registry inv place .subsystem s
        [.granted (Method.createSubsystem.on Engine.CreateSubsystem.codec
          (Subsystems.creation s.spec)),
         ⟨Subsystems.hostCall s.spec host, answer⟩,
         ⟨Subsystems.removalCall s.spec.nqn, undone⟩]
  /-- The engine does not tell its version. -/
  | versionless {s : Subsystem} {answer undone : Answer}
      (hanswer : answer.read? Engine.Version.codec = none) :
      Unmade registry inv place .subsystem s
        (.granted (Method.createSubsystem.on Engine.CreateSubsystem.codec
          (Subsystems.creation s.spec)) :: Subsystems.hosting s.spec ++
            [⟨⟨.getVersion, none⟩, answer⟩,
             ⟨Subsystems.removalCall s.spec.nqn, undone⟩])

/-! ### How making goes -/

namespace Subsystems

theorem goes_addHost {spec : SubsystemSpec} {t : List Exchange} {r : Except Fault Unit}
    (h : (addHost spec).Goes t r) :
    (t = hosting spec ∧ r = .ok ()) ∨
      ∃ host answer, spec.hostnqn = some host ∧ answer ≠ .ok (.bool true) ∧
        t = [⟨hostCall spec host, answer⟩] ∧
          r = .error (denial .addHost .flag (.addHost host spec.nqn) answer) := by
  unfold addHost at h
  cases hhost : spec.hostnqn with
  | none =>
    rw [hhost] at h
    obtain ⟨rfl, rfl⟩ := goes_done_iff.1 h
    exact .inl ⟨by simp [hosting, hhost], rfl⟩
  | some host =>
    rw [hhost] at h
    obtain ⟨answer, rfl, ⟨rfl, rfl⟩ | ⟨hno, rfl⟩⟩ := goes_grant_iff.1 h
    · exact .inl ⟨by simp [hosting, hhost, hostCall, Exchange.granted], rfl⟩
    · exact .inr ⟨host, answer, rfl, hno, rfl, rfl⟩

/-- A subsystem that the engine has made is finished when its host may connect and the engine tells
its version. -/
theorem goes_finish {spec : SubsystemSpec} {t : List Exchange} {r : Except Fault Engine.Version}
    (h : (finish spec).Goes t r) :
    (∃ answer version, answer.read? Engine.Version.codec = some version ∧
        t = hosting spec ++ [⟨⟨.getVersion, none⟩, answer⟩] ∧ r = .ok version) ∨
      (∃ answer e, answer.decode Method.getVersion.name Engine.Version.codec = .error e ∧
        t = hosting spec ++ [⟨⟨.getVersion, none⟩, answer⟩] ∧ r = .error e) ∨
      ∃ host answer, spec.hostnqn = some host ∧ answer ≠ .ok (.bool true) ∧
        t = [⟨hostCall spec host, answer⟩] ∧
          r = .error (denial .addHost .flag (.addHost host spec.nqn) answer) := by
  rcases goes_bind_iff.1 h with ⟨e, h₁, rfl⟩ | ⟨u, t₁, t₂, h₁, h₂, rfl⟩
  · rcases goes_addHost h₁ with ⟨-, hr⟩ | ⟨host, answer, hhost, hno, rfl, hr⟩
    · cases hr
    · cases hr
      exact .inr (.inr ⟨host, answer, hhost, hno, rfl, rfl⟩)
  · rcases goes_addHost h₁ with ⟨rfl, -⟩ | ⟨_, _, -, -, -, hr⟩
    · obtain ⟨answer, rfl, rfl⟩ := goes_invokeBare_iff.1 h₂
      cases hd : answer.decode Method.getVersion.name Engine.Version.codec with
      | ok version =>
        exact .inl ⟨answer, version, (Answer.decode_eq_ok_iff _).1 hd, rfl, rfl⟩
      | error e => exact .inr (.inl ⟨answer, e, hd, rfl, rfl⟩)
    · cases hr

/-- A subsystem that cannot be finished is removed, and the fault that was there stays. -/
theorem goes_undo {nqn : String} {e : Fault} {t : List Exchange} {r : Except Fault Subsystem}
    (h : ((remove nqn).attempt.bind fun _ => (Script.failed e : Script Subsystem)).Goes t r) :
    ∃ undone, t = [⟨removalCall nqn, undone⟩] ∧ r = .error e := by
  obtain ⟨_, t₁, t₂, hremove, hend, rfl⟩ := goes_attempt_bind_iff.1 h
  obtain ⟨undone, rfl, -⟩ := goes_invoke_iff.1 hremove
  obtain ⟨rfl, rfl⟩ := goes_failed_iff.1 hend
  exact ⟨undone, rfl, rfl⟩

theorem goes_make (registry : Attach.Registry) {inv : Inventory} {place : Place} {s : Subsystem}
    {t : List Exchange} {r : Except Fault Subsystem} (h : (make inv place s).Goes t r) :
    (∃ made, r = .ok made ∧ Made registry inv place .subsystem s made t) ∨
      ∃ e, r = .error e ∧ Unmade registry inv place .subsystem s t := by
  rcases goes_check_bind_iff.1 h with ⟨why, -, rfl, rfl⟩ | ⟨_, hunowned, hcreate⟩
  · exact .inr ⟨_, rfl, .unasked keepsObjects_nil⟩
  -- Once the subsystem is made, finishing it decides whether it stays.
  obtain ⟨answer, rest, rfl, ⟨rfl, hrest⟩ | ⟨hno, rfl, rfl⟩⟩ := goes_grant_bind_iff.1 hcreate
  · obtain ⟨result, t₁, t₂, hfinish, hend, rfl⟩ := goes_attempt_bind_iff.1 hrest
    rcases goes_finish hfinish with ⟨answer, version, hread, rfl, rfl⟩ |
      ⟨answer, e, hdecode, rfl, rfl⟩ | ⟨host, answer, hhost, hno, rfl, rfl⟩
    · obtain ⟨rfl, rfl⟩ := goes_done_iff.1 hend
      rw [List.append_nil]
      exact .inl ⟨_, rfl, .subsystem hread hunowned⟩
    · obtain ⟨undone, rfl, rfl⟩ := goes_undo hend
      rw [List.append_assoc]
      exact .inr ⟨_, rfl, .versionless (Answer.read?_eq_none_of_decode hdecode)⟩
    · obtain ⟨undone, rfl, rfl⟩ := goes_undo hend
      exact .inr ⟨_, rfl, .hostless hhost hno⟩
  · exact .inr ⟨_, rfl, .refused rfl (Answer.affirms_eq_false_of_ne (by simp) (by simp) hno)
      keepsObjects_nil keepsObjects_nil⟩

end Subsystems

theorem Controllers.goes_make {registry : Attach.Registry} {inv : Inventory} {place : Place}
    {c : Controller} {t : List Exchange} {r : Except Fault Controller}
    (h : (make registry inv place c).Goes t r) :
    (∃ made, r = .ok made ∧ Made registry inv place .controller c made t) ∨
      ∃ e, r = .error e ∧ Unmade registry inv place .controller c t := by
  rcases goes_demand_bind_iff.1 h with ⟨-, rfl, rfl⟩ | ⟨s, hparent, hmake⟩
  · exact .inr ⟨_, rfl, .unasked keepsObjects_nil⟩
  rcases goes_check_bind_iff.1 hmake with ⟨why, -, rfl, rfl⟩ | ⟨listener, hlistener, hadd⟩
  · exact .inr ⟨_, rfl, .unasked keepsObjects_nil⟩
  obtain ⟨answer, rest, rfl, ⟨rfl, hend⟩ | ⟨hno, rfl, rfl⟩⟩ := goes_grant_bind_iff.1 hadd
  · obtain ⟨rfl, rfl⟩ := goes_done_iff.1 hend
    exact .inl ⟨_, rfl, .controller hparent hlistener⟩
  · refine .inr ⟨_, rfl, .refused ?_ (Answer.affirms_eq_false_of_ne (by simp) (by simp) hno)
      keepsObjects_nil keepsObjects_nil⟩
    simp [creation, hparent, hlistener, Except.toOption]

theorem Namespaces.goes_make (registry : Attach.Registry) {inv : Inventory} {place : Place}
    {n : NvmeNamespace} {t : List Exchange} {r : Except Fault NvmeNamespace}
    (h : (make inv place n).Goes t r) :
    (∃ made, r = .ok made ∧ Made registry inv place .nvmeNamespace n made t) ∨
      ∃ e, r = .error e ∧ Unmade registry inv place .nvmeNamespace n t := by
  rcases goes_demand_bind_iff.1 h with ⟨-, rfl, rfl⟩ | ⟨s, hparent, hadd⟩
  · exact .inr ⟨_, rfl, .unasked keepsObjects_nil⟩
  obtain ⟨answer, rest, rfl, ⟨nsid, hnsid, hpos, hend⟩ | ⟨hno, rfl, rfl⟩⟩ :=
    goes_confirm_bind_iff.1 hadd
  · obtain ⟨rfl, rfl⟩ := goes_done_iff.1 hend
    exact .inl ⟨_, rfl, .nvmeNamespace hparent hnsid (of_decide_eq_true hpos)⟩
  · have hanswer : answer.affirms .nvmeNamespace = false := hno
    refine .inr ⟨_, rfl, .refused ?_ hanswer keepsObjects_nil keepsObjects_nil⟩
    simp [creation, hparent]

namespace VirtioBlks

theorem setLimits_reads (limits : Engine.VolumeLimits) : Reads (Engine.setLimits limits) :=
  Asks.bind (Asks.invoke _ rfl) fun _ => Asks.confirm _ _

theorem limit_reads (d : VirtioBlk) : Reads (limit d) := by
  unfold limit
  split
  · exact Asks.bind (Asks.check _) fun _ => setLimits_reads _
  · exact Asks.done _

theorem unlimit_reads (d : VirtioBlk) : Reads (unlimit d) := by
  unfold unlimit
  split
  · exact Asks.bind (Asks.attempt (setLimits_reads _)) fun _ => Asks.done _
  · exact Asks.done _

/-- Lifting limits does not fail. -/
theorem result_of_goes_unlimit {d : VirtioBlk} {t : List Exchange} {r : Except Fault Unit}
    (h : (unlimit d).Goes t r) : r = .ok () := by
  unfold unlimit at h
  split at h
  · obtain ⟨_, _, _, -, hend, -⟩ := goes_attempt_bind_iff.1 h
    exact (goes_done_iff.1 hend).2
  · exact (goes_done_iff.1 h).2

theorem goes_make (registry : Attach.Registry) (inv : Inventory) {place : Place} {d : VirtioBlk}
    {t : List Exchange} {r : Except Fault VirtioBlk} (h : (make place d).Goes t r) :
    (∃ made, r = .ok made ∧ Made registry inv place .virtioBlk d made t) ∨
      ∃ e, r = .error e ∧ Unmade registry inv place .virtioBlk d t := by
  rcases goes_check_bind_iff.1 h with ⟨why, -, rfl, rfl⟩ | ⟨params, hparams, hmake⟩
  · exact .inr ⟨_, rfl, .unasked keepsObjects_nil⟩
  -- The limits are set before the device is made, and lifted when it is not.
  rcases goes_bind_iff.1 hmake with ⟨e, hlimit, rfl⟩ | ⟨_, before, rest, hlimit, hrest, rfl⟩
  · exact .inr ⟨_, rfl, .unasked (limit_reads d _ _ hlimit)⟩
  have hbefore : KeepsObjects before := limit_reads d _ _ hlimit
  obtain ⟨result, t₁, t₂, hattach, hend, rfl⟩ := goes_attempt_bind_iff.1 hrest
  obtain ⟨answer, rfl, ⟨rfl, rfl⟩ | ⟨hno, rfl⟩⟩ := goes_grant_iff.1 hattach
  · obtain ⟨rfl, rfl⟩ := goes_done_iff.1 hend
    exact .inl ⟨_, rfl, .virtioBlk hparams hbefore⟩
  · rcases goes_bind_iff.1 hend with ⟨e, hlift, -⟩ | ⟨_, after, t₃, hlift, hfail, rfl⟩
    · cases result_of_goes_unlimit hlift
    · obtain ⟨rfl, rfl⟩ := goes_failed_iff.1 hfail
      rw [List.append_nil]
      refine .inr ⟨_, rfl, .refused ?_ (Answer.affirms_eq_false_of_ne (by simp) (by simp) hno)
        hbefore (unlimit_reads d _ _ hlift)⟩
      simp [creation, hparams, Except.toOption]

end VirtioBlks

theorem ScsiControllers.goes_make (registry : Attach.Registry) (inv : Inventory) {place : Place}
    {c : ScsiController} {t : List Exchange} {r : Except Fault ScsiController}
    (h : (make place c).Goes t r) :
    (∃ made, r = .ok made ∧ Made registry inv place .scsiController c made t) ∨
      ∃ e, r = .error e ∧ Unmade registry inv place .scsiController c t := by
  rcases goes_check_bind_iff.1 h with ⟨why, -, rfl, rfl⟩ | ⟨params, hparams, hmake⟩
  · exact .inr ⟨_, rfl, .unasked keepsObjects_nil⟩
  obtain ⟨answer, rest, rfl, ⟨rfl, hend⟩ | ⟨hno, rfl, rfl⟩⟩ := goes_grant_bind_iff.1 hmake
  · obtain ⟨rfl, rfl⟩ := goes_done_iff.1 hend
    exact .inl ⟨_, rfl, .scsiController hparams⟩
  · refine .inr ⟨_, rfl, .refused ?_ (Answer.affirms_eq_false_of_ne (by simp) (by simp) hno)
      keepsObjects_nil keepsObjects_nil⟩
    simp [creation, hparams, Except.toOption]

theorem ScsiLuns.goes_make (registry : Attach.Registry) {inv : Inventory} {place : Place}
    {l : ScsiLun} {t : List Exchange} {r : Except Fault ScsiLun}
    (h : (make inv place l).Goes t r) :
    (∃ made, r = .ok made ∧ Made registry inv place .scsiLun l made t) ∨
      ∃ e, r = .error e ∧ Unmade registry inv place .scsiLun l t := by
  rcases goes_demand_bind_iff.1 h with ⟨-, rfl, rfl⟩ | ⟨c, hparent, hadd⟩
  · exact .inr ⟨_, rfl, .unasked keepsObjects_nil⟩
  obtain ⟨answer, rest, rfl, ⟨target, htarget, hnonneg, hend⟩ | ⟨hno, rfl, rfl⟩⟩ :=
    goes_confirm_bind_iff.1 hadd
  · obtain ⟨rfl, rfl⟩ := goes_done_iff.1 hend
    exact .inl ⟨_, rfl, .scsiLun hparent htarget (of_decide_eq_true hnonneg)⟩
  · have hanswer : answer.affirms .scsiLun = false := hno
    refine .inr ⟨_, rfl, .refused ?_ hanswer keepsObjects_nil keepsObjects_nil⟩
    simp [creation, hparent]

/-- Making the object of a draft succeeds or fails in one of the ways above. -/
theorem goes_make {registry : Attach.Registry} {inv : Inventory} {place : Place} {k : Kind}
    {draft : k.Record} {t : List Exchange} {r : Except Fault k.Record}
    (h : ((k.family registry).make inv place draft).Goes t r) :
    (∃ made, r = .ok made ∧ Made registry inv place k draft made t) ∨
      ∃ e, r = .error e ∧ Unmade registry inv place k draft t := by
  cases k with
  | subsystem => exact Subsystems.goes_make registry h
  | controller => exact Controllers.goes_make h
  | nvmeNamespace => exact Namespaces.goes_make registry h
  | virtioBlk => exact VirtioBlks.goes_make registry inv h
  | scsiController => exact ScsiControllers.goes_make registry inv h
  | scsiLun => exact ScsiLuns.goes_make registry h

/-! ## Removing -/

/-- The call that removes the object of a record, if the record's parent is kept and the record can
be attached. It names the object by what the record holds. -/
def removal (registry : Attach.Registry) (inv : Inventory) (name : String) :
    (k : Kind) → k.Record → Option Call
  | .subsystem, s => some (Subsystems.removalCall s.spec.nqn)
  | .controller, c => do
    let s ← inv.find? .subsystem c.spec.subsystemNameRef
    let listener ← (registry.listener c s).toOption
    some (Method.removeListener.on Engine.Listener.codec listener)
  | .nvmeNamespace, n => do
    let s ← inv.find? .subsystem n.spec.subsystemNameRef
    some (Method.removeNamespace.on Engine.RemoveNamespace.codec
      { nqn := s.spec.nqn, nsid := n.spec.hostNsid })
  | .virtioBlk, _ | .scsiController, _ =>
    some (Method.deleteVhostController.on Engine.VhostRef.codec
      (Attach.vhostRef (Name.ownId name)))
  | .scsiLun, l => do
    let _ ← inv.find? .scsiController l.controllerNameRef
    some (Method.removeTarget.on Engine.RemoveTarget.codec
      { ctrlr := Name.ownId l.controllerNameRef, scsiTargetNum := l.targetNum })

/-- The call of a removal removes an object. -/
theorem method_of_removal {registry : Attach.Registry} {inv : Inventory} {name : String}
    {k : Kind} {record : k.Record} {call : Call}
    (h : removal registry inv name k record = some call) : call.method.keepsObjects = false := by
  cases k with
  | subsystem | virtioBlk | scsiController =>
    cases h
    rfl
  | controller =>
    obtain ⟨s, -, h⟩ := Option.bind_eq_some_iff.1 h
    obtain ⟨listener, -, ⟨⟩⟩ := Option.bind_eq_some_iff.1 h
    rfl
  | nvmeNamespace | scsiLun =>
    obtain ⟨_, -, ⟨⟩⟩ := Option.bind_eq_some_iff.1 h
    rfl

/-- Removing the object of a record succeeds exactly when there is a call for it and the engine
grants it. -/
theorem goes_release {registry : Attach.Registry} {inv : Inventory} {name : String} {k : Kind}
    {record : k.Record} {t : List Exchange} {r : Except Fault Unit}
    (h : ((k.family registry).release inv name record).Goes t r) :
    (removal registry inv name k record = none ∧ t = [] ∧ ∃ e, r = .error e) ∨
      ∃ call answer, removal registry inv name k record = some call ∧ t = [⟨call, answer⟩] ∧
        ((answer = .ok (.bool true) ∧ r = .ok ()) ∨
          (answer ≠ .ok (.bool true) ∧ ∃ e, r = .error e)) := by
  cases k with
  | subsystem =>
    obtain ⟨answer, rfl, hr⟩ := goes_grant_iff.1 h
    exact .inr ⟨_, answer, rfl, rfl, hr.imp_right fun hr => ⟨hr.1, _, hr.2⟩⟩
  | controller =>
    rcases goes_demand_bind_iff.1 h with ⟨hnone, rfl, rfl⟩ | ⟨s, hparent, hremove⟩
    · exact .inl ⟨by simp [removal, hnone], rfl, _, rfl⟩
    rcases goes_check_bind_iff.1 hremove with ⟨why, hwhy, rfl, rfl⟩ | ⟨listener, hlistener, hgrant⟩
    · exact .inl ⟨by simp [removal, hparent, hwhy, Except.toOption], rfl, _, rfl⟩
    obtain ⟨answer, rfl, hr⟩ := goes_grant_iff.1 hgrant
    refine .inr ⟨_, answer, ?_, rfl, hr.imp_right fun hr => ⟨hr.1, _, hr.2⟩⟩
    simp [removal, hparent, hlistener, Except.toOption]
  | nvmeNamespace =>
    rcases goes_demand_bind_iff.1 h with ⟨hnone, rfl, rfl⟩ | ⟨s, hparent, hgrant⟩
    · exact .inl ⟨by simp [removal, hnone], rfl, _, rfl⟩
    obtain ⟨answer, rfl, hr⟩ := goes_grant_iff.1 hgrant
    refine .inr ⟨_, answer, ?_, rfl, hr.imp_right fun hr => ⟨hr.1, _, hr.2⟩⟩
    simp [removal, hparent]
  | virtioBlk | scsiController =>
    obtain ⟨answer, rfl, hr⟩ := goes_grant_iff.1 h
    exact .inr ⟨_, answer, rfl, rfl, hr.imp_right fun hr => ⟨hr.1, _, hr.2⟩⟩
  | scsiLun =>
    rcases goes_demand_bind_iff.1 h with ⟨hnone, rfl, rfl⟩ | ⟨c, hparent, hgrant⟩
    · exact .inl ⟨by simp [removal, hnone], rfl, _, rfl⟩
    obtain ⟨answer, rfl, hr⟩ := goes_grant_iff.1 hgrant
    refine .inr ⟨_, answer, ?_, rfl, hr.imp_right fun hr => ⟨hr.1, _, hr.2⟩⟩
    simp [removal, hparent]

/-- What is left to do for a dropped record does not fail, and leaves the engine's objects as they
are. -/
theorem goes_tidy {registry : Attach.Registry} {k : Kind} {record : k.Record}
    {t : List Exchange} {r : Except Fault Unit} (h : ((k.family registry).tidy record).Goes t r) :
    KeepsObjects t ∧ r = .ok () := by
  cases k with
  | virtioBlk =>
    exact ⟨VirtioBlks.unlimit_reads _ _ _ h, VirtioBlks.result_of_goes_unlimit h⟩
  | _ =>
    obtain ⟨rfl, rfl⟩ := goes_done_iff.1 h
    exact ⟨keepsObjects_nil, rfl⟩

/-! ## Asking -/

theorem subsystems_queries : Queries Engine.subsystems :=
  Asks.invokeBare _ rfl

theorem vhostControllers_queries (id : Option String) : Queries (Engine.vhostControllers id) :=
  Asks.invoke _ rfl

theorem scsiTargets_queries (id : String) : Queries (Engine.scsiTargets id) :=
  Asks.bind (vhostControllers_queries _) fun _ => Asks.done _

theorem volumeStats_queries (volume : String) : Queries (Engine.volumeStats volume) :=
  Asks.bind (Asks.invoke _ rfl) fun _ => Asks.bind (Asks.demand _ _) fun _ => Asks.done _

/-- Bringing a record up to date only asks. -/
theorem refresh_queries (registry : Attach.Registry) (inv : Inventory) (name : String) {k : Kind}
    (record : k.Record) : Queries ((k.family registry).refresh inv name record) := by
  cases k with
  | subsystem =>
    exact Asks.bind subsystems_queries fun _ => Asks.bind (Asks.demand _ _) fun _ => Asks.done _
  | controller =>
    refine Asks.bind (Asks.demand _ _) fun _ => Asks.bind (Asks.check _) fun _ =>
      Asks.bind subsystems_queries fun _ => ?_
    split
    · exact Asks.done _
    · exact Asks.failed _
  | nvmeNamespace =>
    exact Asks.bind (Asks.demand _ _) fun _ => Asks.bind subsystems_queries fun _ =>
      Asks.bind (Asks.demand _ _) fun _ => Asks.bind (Asks.demand _ _) fun _ => Asks.done _
  | virtioBlk =>
    exact Asks.bind (vhostControllers_queries _) fun _ => Asks.bind (Asks.demand _ _) fun _ =>
      Asks.done _
  | scsiController =>
    exact Asks.bind (scsiTargets_queries _) fun _ => Asks.bind (Asks.demand _ _) fun _ =>
      Asks.done _
  | scsiLun =>
    exact Asks.bind (Asks.demand _ _) fun _ => Asks.bind (scsiTargets_queries _) fun _ =>
      Asks.bind (Asks.demand _ _) fun _ => Asks.done _

/-- Listing only asks. -/
theorem items_queries (registry : Attach.Registry) (inv : Inventory) (parent : String) (k : Kind) :
    Queries ((k.family registry).items inv parent) := by
  cases k with
  | subsystem => exact Asks.bind subsystems_queries fun _ => Asks.done _
  | controller =>
    exact Asks.bind (Asks.demand _ _) fun _ => Asks.bind subsystems_queries fun _ =>
      Asks.bind (Asks.demand _ _) fun _ => Asks.check _
  | nvmeNamespace =>
    exact Asks.bind (Asks.demand _ _) fun _ => Asks.bind subsystems_queries fun _ =>
      Asks.bind (Asks.demand _ _) fun _ => Asks.done _
  | virtioBlk => exact Asks.bind (vhostControllers_queries _) fun _ => Asks.done _
  | scsiController => exact Asks.bind (vhostControllers_queries _) fun _ => Asks.done _
  | scsiLun =>
    exact Asks.bind (Asks.demand _ _) fun _ => Asks.bind (scsiTargets_queries _) fun _ =>
      Asks.bind (Asks.demand _ _) fun _ => Asks.done _

/-- Measuring only asks. -/
theorem counters_queries (registry : Attach.Registry) {k : Kind}
    {counters : k.Record → Script VolumeStats}
    (h : (k.family registry).counters = .ok counters) (record : k.Record) :
    Queries (counters record) := by
  cases k with
  | subsystem => cases h; exact Asks.bind (Asks.invokeBare _ rfl) fun _ => Asks.done _
  | controller => cases h; exact Asks.done _
  | nvmeNamespace => cases h; exact volumeStats_queries _
  | virtioBlk => cases h; exact volumeStats_queries _
  | scsiController => cases h
  | scsiLun => cases h

end StorageControl
