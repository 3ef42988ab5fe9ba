/-
# Whose fault it is when an operation fails

An operation that has asked the engine can only fail because of an answer: the engine reports an
error, or answers something that is not of the expected type, or refuses, or does not list what the
operation looks for. Whatever else can be wrong is found before the engine is asked. That needs one
fact about what is kept: a listing attaches the controllers that are kept when the engine has
already been asked, and they can all be attached.
-/
import StorageControl.Proofs.Compensation
import StorageControl.Proofs.Contents
import StorageControl.Proofs.Listener

namespace StorageControl

open Engine (Answer Call Method Script)
open Engine.Script

variable {registry : Attach.Registry} {fresh : String} {inv : Inventory} {k : Kind}

/-! ## What the engine can answer -/

/-- A method that the engine answers with a truth value: it has done what it was asked, or not. -/
def Engine.Method.grants : Method → Bool
  | .createSubsystem | .deleteSubsystem | .addHost | .addListener | .removeListener
  | .removeNamespace | .setLimits | .createBlkController | .createScsiController
  | .deleteVhostController | .removeTarget => true
  | .getVersion | .getSubsystems | .getTargetStats | .getVolumeStats | .getVhostControllers
  | .addNamespace | .addTarget => false

/-- The value is of the type that is expected of a method. -/
def Engine.Method.understands (m : Method) (v : Json) : Bool :=
  match m with
  | .getVersion => (Engine.Version.codec.decode v).isSome
  | .getSubsystems => (Engine.SubsystemRow.codec.list.decode v).isSome
  | .getTargetStats => (Engine.TargetStats.codec.decode v).isSome
  | .getVolumeStats => (Engine.VolumeReport.codec.decode v).isSome
  | .getVhostControllers => (Engine.VhostRow.codec.list.decode v).isSome
  | .addNamespace | .addTarget => (Codec.int32.decode v).isSome
  | _ => (Codec.flag.decode v).isSome

/-- The value says that the engine has not done what it was asked: it is false, or no number of a
namespace, which is positive, or of a target, which is not negative. -/
def Engine.Method.isRefusal (m : Method) (v : Json) : Bool :=
  match m with
  | .getVersion | .getSubsystems | .getTargetStats | .getVolumeStats | .getVhostControllers => false
  | .addNamespace => (Codec.int32.decode v).any fun n => decide (n ≤ 0)
  | .addTarget => (Codec.int32.decode v).any fun n => decide (n < 0)
  | _ => Codec.flag.decode v == some false

theorem Engine.Method.understands_of_grants {m : Method} (h : m.grants = true) (v : Json) :
    m.understands v = (Codec.flag.decode v).isSome := by
  cases m <;> first | rfl | cases h

theorem Engine.Method.isRefusal_of_grants {m : Method} (h : m.grants = true) (v : Json) :
    m.isRefusal v = (Codec.flag.decode v == some false) := by
  cases m <;> first | rfl | cases h

/-! ## What an operation looks for -/

/-- Something that is looked for in what the engine lists. -/
inductive Sought where
  /-- A subsystem. -/
  | subsystem (nqn : String)
  /-- A listener of a subsystem. -/
  | listener (nqn : String) (address : Engine.ListenAddress)
  /-- A namespace of a subsystem. -/
  | nvmeNamespace (nqn : String) (nsid : Int32)
  /-- A vhost controller with a volume. -/
  | device (id : String)
  /-- A vhost controller with a SCSI bus. -/
  | bus (id : String)
  /-- A target on the SCSI bus of a vhost controller. -/
  | target (id : String) (number : Int32)
  /-- The counters of a volume. -/
  | counters (volume : String)
deriving DecidableEq, Repr

namespace Sought

/-- The method that lists it. -/
def method : Sought → Method
  | .subsystem _ | .listener _ _ | .nvmeNamespace _ _ => .getSubsystems
  | .device _ | .bus _ | .target _ _ => .getVhostControllers
  | .counters _ => .getVolumeStats

/-- The value is a listing without it. -/
def isMissing (sought : Sought) (v : Json) : Bool :=
  match sought with
  | .subsystem nqn =>
    (Engine.SubsystemRow.codec.list.decode v).any fun rows => (Engine.rowOf? nqn rows).isNone
  | .listener nqn address =>
    (Engine.SubsystemRow.codec.list.decode v).any fun rows =>
      !(Engine.rowOf? nqn rows).any (Controllers.isActive address)
  | .nvmeNamespace nqn nsid =>
    (Engine.SubsystemRow.codec.list.decode v).any fun rows =>
      ((Engine.rowOf? nqn rows).bind fun row => row.namespaces.find? (·.nsid == nsid)).isNone
  | .device id =>
    (Engine.VhostRow.codec.list.decode v).any fun rows =>
      ((Engine.backendOf? id rows).bind (·.block)).isNone
  | .bus id =>
    (Engine.VhostRow.codec.list.decode v).any fun rows =>
      ((Engine.backendOf? id rows).bind (·.scsi)).isNone
  | .target id number =>
    (Engine.VhostRow.codec.list.decode v).any fun rows =>
      (((Engine.backendOf? id rows).bind (·.scsi)).bind
        fun targets => targets.find? (·.scsiDevNum == number)).isNone
  | .counters volume =>
    (Engine.VolumeReport.codec.decode v).any
      fun report => (report.bdevs.find? (·.name == volume)).isNone

/-- What is looked for when a record is brought up to date. A controller is known by its
listener. -/
def ofRecord? (registry : Attach.Registry) (inv : Inventory) (name : String) :
    (k : Kind) → k.Record → Option Sought
  | .subsystem, s => some (.subsystem s.spec.nqn)
  | .controller, c => do
    let s ← inv.find? .subsystem c.spec.subsystemNameRef
    let listener ← (registry.listener c s).toOption
    some (.listener s.spec.nqn listener.listenAddress)
  | .nvmeNamespace, n => do
    let s ← inv.find? .subsystem n.spec.subsystemNameRef
    some (.nvmeNamespace s.spec.nqn n.spec.hostNsid)
  | .virtioBlk, _ => some (.device (Name.ownId name))
  | .scsiController, _ => some (.bus (Name.ownId name))
  | .scsiLun, l => some (.target (Name.ownId l.controllerNameRef) l.targetNum)

/-- What is looked for when the records under a parent are listed. -/
def ofParent? (inv : Inventory) (parent : String) : Kind → Option Sought
  | .controller | .nvmeNamespace => do
    let s ← inv.find? .subsystem parent
    some (.subsystem s.spec.nqn)
  | .scsiLun => some (.bus (Name.ownId parent))
  | .subsystem | .virtioBlk | .scsiController => none

/-- What is looked for when a record is measured. -/
def ofCounters? : (k : Kind) → k.Record → Option Sought
  | .nvmeNamespace, n => some (.counters n.spec.volumeNameRef)
  | .virtioBlk, d => some (.counters d.volumeNameRef)
  | .subsystem, _ | .controller, _ | .scsiController, _ | .scsiLun, _ => none

end Sought

/-- What an operation looks for in the engine's listings. -/
def Operation.sought? (registry : Attach.Registry) (inv : Inventory) :
    Operation k → Option Sought
  | .get name => (inv.find? k name).bind (Sought.ofRecord? registry inv name k)
  | .list request =>
    (Place.parentOf k request.parent "").toOption.bind fun parent => Sought.ofParent? inv parent k
  | .stats name => (inv.find? k name).bind (Sought.ofCounters? k)
  | .create _ _ _ | .update _ | .delete _ => none

/-! ## Grounds -/

/-- An answer explains why an operation that looks for something fails. -/
inductive Exchange.Explains (sought : Option Sought) (x : Exchange) : Fault → Prop
  /-- It is an error. -/
  | failed {e : Fault} (hanswer : x.answer = .error e) : Explains sought x e
  /-- It is not of the expected type. -/
  | malformed {v : Json} (hanswer : x.answer = .ok v)
      (hv : x.request.method.understands v = false) :
      Explains sought x (.unreachable (.malformedResult x.request.method.name))
  /-- It is a refusal. -/
  | refused {v : Json} {what : Refusal} (hanswer : x.answer = .ok v)
      (hv : x.request.method.isRefusal v = true) : Explains sought x (.refused what)
  /-- It is a listing without what is looked for. -/
  | unlisted {v : Json} {what : Absence} {s : Sought} (hanswer : x.answer = .ok v)
      (hs : sought = some s) (hmethod : x.request.method = s.method)
      (hv : s.isMissing v = true) : Explains sought x (.unlisted what)

/-- A fault has its ground: it was found before the engine was asked, or an answer explains it. -/
inductive Grounded (sought : Option Sought) (t : List Exchange) (e : Fault) : Prop
  | silent (ht : t = []) (he : e.isLocal = true)
  | engine {x : Exchange} (hx : x ∈ t) (h : x.Explains sought e)

section

variable {α β γ : Type} {sought : Option Sought} {m : Method} {params : Option Json}

/-- A call that is not granted explains that an operation fails. -/
theorem explains_denial (hm : m.grants = true) {what : Refusal} {answer : Answer}
    (hanswer : answer ≠ .ok (.bool true)) :
    (⟨⟨m, params⟩, answer⟩ : Exchange).Explains sought (denial m .flag what answer) := by
  cases answer with
  | error e => exact .failed rfl
  | ok v =>
    cases hv : Codec.flag.decode v with
    | none =>
      have hdenial : denial m .flag what (.ok v) = .unreachable (.malformedResult m.name) := by
        simp [denial, Answer.decode, hv]
      rw [hdenial]
      exact .malformed rfl (by rw [Method.understands_of_grants hm, hv]; rfl)
    | some granted =>
      have hdenial : denial m .flag what (.ok v) = .refused what := by
        simp [denial, Answer.decode, hv]
      have hfalse : granted = false := by
        rw [Bool.eq_false_iff]
        rintro rfl
        exact hanswer (Answer.read?_flag_eq_some_iff.1 hv)
      rw [hdenial]
      exact .refused rfl (by rw [Method.isRefusal_of_grants hm, hv, hfalse]; rfl)

/-! ## Scripts and their faults -/

/-- Every fault with which the script can end is of the given sort. -/
def Engine.Script.Faults (Q : Fault → Prop) (x : Script α) : Prop :=
  ∀ t e, x.Goes t (.error e) → Q e

namespace Engine.Script.Faults

variable {Q : Fault → Prop}

theorem done (a : α) : Faults Q (.done a) := by
  intro t e h
  cases (goes_done_iff.1 h).2

theorem failed {e : Fault} (h : Q e) : Faults Q (.failed e : Script α) := by
  intro t e' hgo
  cases (goes_failed_iff.1 hgo).2
  exact h

theorem check {e : Except Rejection α} {a : α} (h : e = .ok a) : Faults Q (Script.check e) := by
  rw [h]
  exact done a

theorem demand_bind {fault : Fault} {o : Option α} {f : α → Script β} (hnone : o = none → Q fault)
    (hsome : ∀ a, o = some a → Faults Q (f a)) : Faults Q ((demand fault o).bind f) := by
  intro t e h
  rcases goes_demand_bind_iff.1 h with ⟨ho, -, hr⟩ | ⟨a, ho, h⟩
  · cases hr
    exact hnone ho
  · exact hsome a ho t e h

theorem confirm {granted : Bool} {what : Refusal} (h : granted = false → Q (.refused what)) :
    Faults Q (Script.confirm granted what) := by
  cases granted with
  | true => exact done ()
  | false => exact failed (h rfl)

theorem confirm_bind {granted : Bool} {what : Refusal} {f : Unit → Script β}
    (h : granted = false → Q (.refused what)) (hf : Faults Q (f ())) :
    Faults Q ((Script.confirm granted what).bind f) := by
  cases granted with
  | true => exact hf
  | false => exact failed (h rfl)

end Engine.Script.Faults

/-- Every fault with which the script can end has its ground. -/
def Engine.Script.Blames (sought : Option Sought) (x : Script α) : Prop :=
  ∀ t e, x.Goes t (.error e) → Grounded sought t e

namespace Engine.Script.Blames

theorem done (a : α) : Blames sought (.done a) := by
  intro t e h
  cases (goes_done_iff.1 h).2

/-- What is checked before the engine is asked may fail. -/
theorem check_bind {e : Except Rejection α} {f : α → Script β}
    (hf : ∀ a, e = .ok a → Blames sought (f a)) : Blames sought ((Script.check e).bind f) := by
  intro t e' h
  rcases goes_check_bind_iff.1 h with ⟨why, -, rfl, hr⟩ | ⟨a, ha, h⟩
  · cases hr
    exact .silent rfl rfl
  · exact hf a ha t e' h

/-- What is looked up before the engine is asked may be unknown. -/
theorem demand_bind {name : String} {o : Option α} {f : α → Script β}
    (hf : ∀ a, o = some a → Blames sought (f a)) :
    Blames sought ((demand (.unknown (.record name)) o).bind f) := by
  intro t e h
  rcases goes_demand_bind_iff.1 h with ⟨-, rfl, hr⟩ | ⟨a, ha, h⟩
  · cases hr
    exact .silent rfl rfl
  · exact hf a ha t e h

/-- After a call the script may only fail because of the answer. -/
theorem call_bind {c : Codec α} {f : α → Script β}
    (hm : ∀ v, m.understands v = (c.decode v).isSome)
    (hf : ∀ v a, c.decode v = some a →
      Faults (fun e => (⟨⟨m, params⟩, .ok v⟩ : Exchange).Explains sought e) (f a)) :
    Blames sought ((Script.call ⟨m, params⟩ (receive m c)).bind f) := by
  intro t e h
  obtain ⟨answer, rest, rfl, hrest⟩ := goes_call_iff.1 h
  refine .engine List.mem_cons_self ?_
  cases answer with
  | error e' =>
    cases (goes_failed_iff.1 hrest).2
    exact .failed rfl
  | ok v =>
    cases hv : c.decode v with
    | none =>
      simp only [receive, Answer.decode, hv, settle] at hrest
      cases (goes_failed_iff.1 hrest).2
      exact .malformed rfl (by rw [hm v, hv]; rfl)
    | some a =>
      simp only [receive, Answer.decode, hv, settle] at hrest
      exact hf v a hv rest e hrest

/-- After the targets of a vhost controller have been asked for, the script may only fail because of
the listing. -/
theorem targets_bind {id : String} {f : Option (List Engine.TargetRow) → Script β}
    (hf : ∀ v rows, Engine.VhostRow.codec.list.decode v = some rows →
      Faults (fun e => (⟨⟨.getVhostControllers,
          some (Engine.VhostQuery.codec.encode { name := some id })⟩, .ok v⟩ : Exchange).Explains
        sought e) (f ((Engine.backendOf? id rows).bind (·.scsi)))) :
    Blames sought ((Engine.scsiTargets id).bind f) := by
  rw [Engine.scsiTargets, bind_eq, bind_assoc]
  exact call_bind (fun _ => rfl) hf

/-- A script that has to be granted a call and cannot fail after it. -/
theorem grant_bind {params : Json} (hm : m.grants = true) {what : Refusal} {f : Unit → Script β}
    (hf : ∀ Q, Faults Q (f ())) :
    Blames sought ((invoke m params .flag).bind fun granted =>
      (Script.confirm granted what).bind f) := by
  refine call_bind (Method.understands_of_grants hm) ?_
  intro v granted hv
  refine Faults.confirm_bind ?_ (hf _)
  rintro rfl
  exact .refused rfl (by rw [Method.isRefusal_of_grants hm, hv]; rfl)

/-- A script that ends with a call that it has to be granted. -/
theorem grant {params : Json} (hm : m.grants = true) {what : Refusal} :
    Blames sought ((invoke m params .flag).bind fun granted => Script.confirm granted what) := by
  refine call_bind (Method.understands_of_grants hm) ?_
  intro v granted hv
  refine Faults.confirm ?_
  rintro rfl
  exact .refused rfl (by rw [Method.isRefusal_of_grants hm, hv]; rfl)

end Engine.Script.Blames

end

/-! ## Making and removing -/

/-- Making a subsystem fails before anything is asked, or because it is not made or not finished.
That it is then deleted again does not matter. -/
theorem Subsystems.make_blames (sought : Option Sought) (inv : Inventory) (place : Place)
    (s : Subsystem) : Blames sought (make inv place s) := by
  intro t e h
  generalize hr : Except.error e = r at h
  cases attempt_of_goes h with
  | rejected why =>
    cases hr
    exact .silent rfl rfl
  | refused hanswer =>
    cases hr
    exact .engine List.mem_cons_self (explains_denial rfl hanswer)
  | hostless undone hhost hanswer =>
    cases hr
    exact .engine (List.mem_cons_of_mem _ List.mem_cons_self) (explains_denial rfl hanswer)
  | @versionless answer e' undone hanswer =>
    cases hr
    refine .engine (x := ⟨⟨.getVersion, none⟩, answer⟩) (by simp) ?_
    cases answer with
    | error e' =>
      cases hanswer
      exact .failed rfl
    | ok v =>
      cases hv : Engine.Version.codec.decode v with
      | none =>
        simp only [Answer.decode, hv] at hanswer
        cases hanswer
        exact .malformed rfl (congrArg Option.isSome hv)
      | some version => simp [Answer.decode, hv] at hanswer
  | finished hanswer => cases hr

/-- Making a device fails before anything is asked, or because its volume is not limited or the
device is not made. That the limits are then lifted again does not matter. -/
theorem VirtioBlks.make_blames (sought : Option Sought) (place : Place) (d : VirtioBlk) :
    Blames sought (make place d) := by
  intro t e h
  generalize hr : Except.error e = r at h
  cases attempt_of_goes h with
  | rejected why =>
    cases hr
    exact .silent rfl rfl
  | unlimited hlimits hanswer =>
    cases hr
    exact .engine List.mem_cons_self (explains_denial rfl hanswer)
  | detached hanswer hlifting =>
    cases hr
    exact .engine (List.mem_append_right _ List.mem_cons_self) (explains_denial rfl hanswer)
  | attached => cases hr

/-- Making the object of a draft. -/
theorem make_blames (sought : Option Sought) (registry : Attach.Registry) (inv : Inventory)
    (place : Place) (draft : k.Record) :
    Blames sought ((k.family registry).make inv place draft) := by
  cases k with
  | subsystem => exact Subsystems.make_blames sought inv place draft
  | controller =>
    exact .demand_bind fun s _ => .check_bind fun listener _ => .grant_bind rfl fun _ => .done _
  | nvmeNamespace =>
    refine .demand_bind fun s _ => .call_bind (fun _ => rfl) fun v nsid hv =>
      .confirm_bind (fun hfalse => .refused rfl ?_) (.done _)
    simpa [Method.isRefusal, hv] using hfalse
  | virtioBlk => exact VirtioBlks.make_blames sought place draft
  | scsiController => exact .check_bind fun params _ => .grant_bind rfl fun _ => .done _
  | scsiLun =>
    refine .demand_bind fun c _ => .call_bind (fun _ => rfl) fun v target hv =>
      .confirm_bind (fun hfalse => .refused rfl ?_) (.done _)
    simpa [Method.isRefusal, hv] using hfalse

/-- Removing the object of a record. -/
theorem release_blames (sought : Option Sought) (registry : Attach.Registry) (inv : Inventory)
    (name : String) (record : k.Record) :
    Blames sought ((k.family registry).release inv name record) := by
  cases k with
  | subsystem | virtioBlk | scsiController => exact .grant rfl
  | controller => exact .demand_bind fun s _ => .check_bind fun listener _ => .grant rfl
  | nvmeNamespace | scsiLun => exact .demand_bind fun _ _ => .grant rfl

/-! ## Looking up -/

/-- Bringing a record up to date. -/
theorem refresh_blames (registry : Attach.Registry) (inv : Inventory) (name : String)
    (record : k.Record) :
    Blames (Sought.ofRecord? registry inv name k record)
      ((k.family registry).refresh inv name record) := by
  cases k with
  | subsystem =>
    have hsought : Sought.ofRecord? registry inv name .subsystem record =
        some (.subsystem record.spec.nqn) := rfl
    refine .call_bind (fun _ => rfl) fun v rows hv =>
      .demand_bind (fun hnone => .unlisted rfl hsought rfl ?_) fun _ _ => .done _
    simp [Sought.isMissing, hv, hnone]
  | controller =>
    refine .demand_bind fun s hs => .check_bind fun listener hlistener =>
      .call_bind (fun _ => rfl) fun v rows hv => ?_
    have hsought : Sought.ofRecord? registry inv name .controller record =
        some (.listener s.spec.nqn listener.listenAddress) := by
      simp [Sought.ofRecord?, hs, hlistener, Except.toOption]
    split
    · exact .done _
    · rename_i hinactive
      refine .failed (.unlisted rfl hsought rfl ?_)
      simp [Sought.isMissing, hv, hinactive]
  | nvmeNamespace =>
    refine .demand_bind fun s hs => .call_bind (fun _ => rfl) fun v rows hv => ?_
    have hsought : Sought.ofRecord? registry inv name .nvmeNamespace record =
        some (.nvmeNamespace s.spec.nqn record.spec.hostNsid) := by
      simp [Sought.ofRecord?, hs]
    -- The namespace is missing when its subsystem is.
    refine .demand_bind (fun hnone => .unlisted rfl hsought rfl ?_) fun row hrow =>
      .demand_bind (fun hnone => .unlisted rfl hsought rfl ?_) fun _ _ => .done _
    · simp [Sought.isMissing, hv, hnone]
    · simp [Sought.isMissing, hv, hrow, hnone]
  | virtioBlk =>
    have hsought : Sought.ofRecord? registry inv name .virtioBlk record =
        some (.device (Name.ownId name)) := rfl
    refine .call_bind (fun _ => rfl) fun v rows hv =>
      .demand_bind (fun hnone => .unlisted rfl hsought rfl ?_) fun _ _ => .done _
    simp only [Sought.isMissing, hv, Option.any_some, hnone, Option.isNone_none]
  | scsiController =>
    have hsought : Sought.ofRecord? registry inv name .scsiController record =
        some (.bus (Name.ownId name)) := rfl
    refine .targets_bind fun v rows hv =>
      .demand_bind (fun hnone => .unlisted rfl hsought rfl ?_) fun _ _ => .done _
    simp only [Sought.isMissing, hv, Option.any_some, hnone, Option.isNone_none]
  | scsiLun =>
    have hsought : Sought.ofRecord? registry inv name .scsiLun record =
        some (.target (Name.ownId record.controllerNameRef) record.targetNum) := rfl
    refine .demand_bind fun c hc => .targets_bind fun v rows hv =>
      .demand_bind (fun hnone => .unlisted rfl hsought rfl ?_) fun _ _ => .done _
    simp only [Sought.isMissing, hv, Option.any_some, hnone, Option.isNone_none]

/-- Listing the records under a parent, if the controllers that are kept can be attached. -/
theorem items_blames (hinv : inv.All (Attachable registry)) (parent : String) (k : Kind) :
    Blames (Sought.ofParent? inv parent k) ((k.family registry).items inv parent) := by
  cases k with
  | subsystem | virtioBlk | scsiController =>
    exact .call_bind (fun _ => rfl) fun v rows hv => .done _
  | controller =>
    refine .demand_bind fun s hs => .call_bind (fun _ => rfl) fun v rows hv => ?_
    have hsought : Sought.ofParent? inv parent .controller = some (.subsystem s.spec.nqn) := by
      simp [Sought.ofParent?, hs]
    refine .demand_bind (fun hnone => .unlisted rfl hsought rfl ?_) fun row hrow => ?_
    · simp [Sought.isMissing, hv, hnone]
    -- The controllers are attached now, and that cannot fail.
    · have hchildren : ∀ c ∈ inv.controllers.values.filter (·.spec.subsystemNameRef == parent),
          ∃ address, registry.ListensAt c address := by
        intro c hc
        obtain ⟨name, hname⟩ := Table.exists_find?_of_mem_values (List.mem_filter.1 hc).1
        exact hinv .controller name c hname
      exact .check (Controllers.mapM_withRow hchildren)
  | nvmeNamespace =>
    refine .demand_bind fun s hs => .call_bind (fun _ => rfl) fun v rows hv => ?_
    have hsought : Sought.ofParent? inv parent .nvmeNamespace = some (.subsystem s.spec.nqn) := by
      simp [Sought.ofParent?, hs]
    refine .demand_bind (fun hnone => .unlisted rfl hsought rfl ?_) fun row hrow => .done _
    simp [Sought.isMissing, hv, hnone]
  | scsiLun =>
    have hsought : Sought.ofParent? inv parent .scsiLun = some (.bus (Name.ownId parent)) := rfl
    refine .demand_bind fun c hc => .targets_bind fun v rows hv =>
      .demand_bind (fun hnone => .unlisted rfl hsought rfl ?_) fun _ _ => .done _
    simp only [Sought.isMissing, hv, Option.any_some, hnone, Option.isNone_none]

/-- Measuring a record. -/
theorem counters_blames {counters : k.Record → Script VolumeStats}
    (h : (k.family registry).counters = .ok counters) (record : k.Record) :
    Blames (Sought.ofCounters? k record) (counters record) := by
  have hvolume (volume : String) : Blames (some (.counters volume)) (Engine.volumeStats volume) := by
    refine .call_bind (fun _ => rfl) fun v report hv =>
      .demand_bind (fun hnone => .unlisted rfl rfl rfl ?_) fun _ _ => .done _
    simp only [Sought.isMissing, hv, Option.any_some, hnone, Option.isNone_none]
  cases k with
  | subsystem =>
    cases h
    exact .call_bind (fun _ => rfl) fun v stats hv => .done _
  | controller =>
    cases h
    exact .done _
  | nvmeNamespace =>
    cases h
    exact hvolume _
  | virtioBlk =>
    cases h
    exact hvolume _
  | scsiController => cases h
  | scsiLun => cases h

/-! ## Operations -/

/-- A fault with which an operation fails has its ground. -/
theorem Way.grounded {op : Operation k} {events : List Event} {r : Except Fault (Reply k)}
    (h : Way registry fresh inv op events r) (hinv : inv.All (Attachable registry)) {e : Fault}
    (hr : r = .error e) : Grounded (op.sought? registry inv) (exchanges events) e := by
  cases h with
  | settled hlocal => exact .silent rfl (hlocal e hr)
  | @refreshed name record t r hkept hgo =>
    rw [exchanges_map_asked, Operation.sought?, hkept, Option.bind_some]
    cases r with
    | error e' =>
      cases hr
      exact refresh_blames registry inv name record t e hgo
    | ok _ => cases hr
  | @measured name record counters t r hcounters hkept hgo =>
    rw [exchanges_map_asked, Operation.sought?, hkept, Option.bind_some]
    cases r with
    | error e' =>
      cases hr
      exact counters_blames hcounters record t e hgo
    | ok _ => cases hr
  | listed => cases hr
  | @unlisted request parent t e' hparent hgo =>
    cases hr
    have hsought : (Operation.list request : Operation k).sought? registry inv =
        Sought.ofParent? inv parent k := by
      simp [Operation.sought?, hparent, Except.toOption]
    rw [exchanges_map_asked, hsought]
    exact items_blames hinv parent k t e hgo
  | @attempted _ place draft t made hop hnew hgo =>
    cases made with
    | error e' =>
      cases hr
      rw [keeping, List.append_nil, exchanges_map_asked]
      exact make_blames _ registry inv place draft t e hgo
    | ok _ => cases hr
  | revised => cases hr
  | dropped => cases hr
  | @held request record t e' hkept hgo =>
    cases hr
    rw [exchanges_map_asked]
    exact release_blames _ registry inv request.name record t e hgo

/-- An answer explains a fault of the request only by being that fault. -/
theorem Exchange.Explains.answer_eq {sought : Option Sought} {x : Exchange} {e : Fault}
    (h : x.Explains sought e) (he : e.isLocal = true) : x.answer = .error e := by
  cases h with
  | failed hanswer => exact hanswer
  | malformed | refused | unlisted => cases he

/-- How an operation fails that looks for something. -/
structure BlamesEngine (sought : Option Sought) (t : List Exchange) (e : Fault) : Prop where
  /-- If it has asked the engine, an answer explains the fault. -/
  explained : t ≠ [] → ∃ x ∈ t, x.Explains sought e
  /-- If it has not, the fault lies in the request. -/
  unasked : t = [] → e.isLocal = true
  /-- A fault that lies in the request is found before anything is asked, unless it is the engine
  that reports it. -/
  silent : e.isLocal = true → t = [] ∨ ∃ x ∈ t, x.answer = .error e

theorem Grounded.blamesEngine {sought : Option Sought} {t : List Exchange} {e : Fault}
    (h : Grounded sought t e) : BlamesEngine sought t e := by
  cases h with
  | silent ht he => exact ⟨fun hne => absurd ht hne, fun _ => he, fun _ => .inl ht⟩
  | engine hx hexplains =>
    refine ⟨fun _ => ⟨_, hx, hexplains⟩, ?_, fun he => .inr ⟨_, hx, hexplains.answer_eq he⟩⟩
    rintro rfl
    cases hx

/-! ## Runs -/

/-- After a run only the engine can fail an operation that has reached it. -/
def Run.BlamesEngine (registry : Attach.Registry) (run : Run) : Prop :=
  ∀ {k : Kind} (op : Operation k) {σ : Type} (engine : σ → Call → Answer × σ) (s : σ)
    (fresh : String) (e : Fault),
    ((run.inventory.perform registry fresh op).run engine s).result = .error e →
      StorageControl.BlamesEngine (op.sought? registry run.inventory)
        (exchanges ((run.inventory.perform registry fresh op).run engine s).events) e

/-- After every run that begins with nothing kept, whatever engine it is against, an operation that
fails fails before it asks any engine, for a fault in the request, or because of one of the
answers. -/
theorem run_blamesEngine {σ : Type} (registry : Attach.Registry)
    (engine : σ → Call → Answer × σ) (steps : List Step) (s : σ) :
    (Run.of registry engine steps .empty s).BlamesEngine registry := by
  intro k op σ' engine' s' fresh e hresult
  have hattachable : (Run.of registry engine steps .empty s).inventory.All (Attachable registry) :=
    Run.attachable steps s (Inventory.all_empty (Attachable registry))
  have hway := way_of_run registry fresh (Run.of registry engine steps .empty s).inventory op
    engine' s'
  exact (hway.grounded hattachable hresult).blamesEngine

end StorageControl
