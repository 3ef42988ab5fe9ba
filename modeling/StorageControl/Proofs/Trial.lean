/-
# What a failed creation leaves behind

On a bench that prepares answers to one method only, every other call is answered by the simulated
engine. So it can be told what is left when a virtio-blk device is not made: the vhost controllers
are as before, and so are the limits of all other volumes. The volume of the device is without
limits if the creation has limited it, also if it was limited before.
-/
import StorageControl.Inventory.Trial
import StorageControl.Proofs.Compensation
import StorageControl.Proofs.Simulation

namespace StorageControl

open Engine (Answer Bench Call Method Script Simulation)
open Engine.Script (denial)

/-! ## Benches -/

/-- Methods have names of their own. -/
theorem Engine.Method.eq_of_name_eq {m n : Method} (h : m.name = n.name) : m = n := by
  have hm := m.ofName?_name
  rw [h, n.ofName?_name] at hm
  exact (Option.some.inj hm).symm

namespace Engine.Bench

variable {b b' : Bench} {m : Method} {call : Call} {answer : Answer}

/-- Nothing is prepared but answers to one method. -/
def OnlyPrepares (b : Bench) (m : Method) : Prop :=
  ∀ name, name ≠ m.name → b.fixed.find? name = none ∧ b.lined.find? name = none

/-- A call is answered with a prepared answer, or by the engine. -/
inductive Answers (b : Bench) (m : Method) (call : Call) : Answer → Bench → Prop
  | prepared {answer : Answer} {b' : Bench} (hm : call.method = m)
      (hengine : b'.engine = b.engine) : Answers b m call answer b'
  | own {b' : Bench} (hengine : b'.engine = (b.engine.answer call).2) :
      Answers b m call (b.engine.answer call).1 b'

/-- A call that no line holds an answer for. -/
theorem answers_of_pass (h : b.OnlyPrepares m)
    (hpass : b.pass ⟨call.method.name, call.params⟩ = (answer, b')) :
    Answers b m call answer b' ∧ b'.OnlyPrepares m := by
  unfold pass at hpass
  cases hfixed : b.fixed.find? call.method.name with
  | some fixed =>
    have hm : call.method = m := by
      by_contra hne
      rw [(h _ fun hname => hne (Method.eq_of_name_eq hname)).1] at hfixed
      cases hfixed
    simp only [hfixed] at hpass
    cases hpass
    exact ⟨.prepared hm rfl, h⟩
  | none =>
    simp only [hfixed, ask, Method.ofName?_name] at hpass
    cases hpass
    exact ⟨.own rfl, h⟩

/-- A line that is shorter leaves only answers to the method prepared. -/
theorem OnlyPrepares.relined (h : b.OnlyPrepares m) {outcomes : List Prepared}
    (hline : b.lined.find? call.method.name = some outcomes) (rest : List Prepared) :
    call.method = m ∧ ∀ name, name ≠ m.name →
      b.fixed.find? name = none ∧ (b.lined.insert call.method.name rest).find? name = none := by
  have hm : call.method = m := by
    by_contra hne
    rw [(h _ fun hname => hne (Method.eq_of_name_eq hname)).2] at hline
    cases hline
  refine ⟨hm, fun name hne => ⟨(h name hne).1, ?_⟩⟩
  rw [hm, Table.find?_insert_of_ne _ hne]
  exact (h name hne).2

/-- Answering a call leaves only answers to the method prepared. -/
theorem answers_of_answer (h : b.OnlyPrepares m) (hanswer : b.answer call = (answer, b')) :
    Answers b m call answer b' ∧ b'.OnlyPrepares m := by
  -- Writing down calls and shortening a line does not touch the engine.
  have hpass {c : Bench} (hpass : c.pass ⟨call.method.name, call.params⟩ = (answer, b'))
      (hengine : c.engine = b.engine) (hc : c.OnlyPrepares m) :
      Answers b m call answer b' ∧ b'.OnlyPrepares m := by
    obtain ⟨hanswers, honly⟩ := answers_of_pass hc hpass
    refine ⟨?_, honly⟩
    cases hanswers with
    | prepared hm hb' => exact .prepared hm (hb'.trans hengine)
    | own hb' =>
      rw [hengine] at hb' ⊢
      exact .own hb'
  unfold Bench.answer answerNamed at hanswer
  cases hline : b.lined.find? call.method.name with
  | none =>
    simp only [hline] at hanswer
    exact hpass hanswer rfl h
  | some outcomes =>
    cases outcomes with
    | nil =>
      simp only [hline] at hanswer
      exact hpass hanswer rfl h
    | cons next rest =>
      obtain ⟨hm, honly⟩ := h.relined hline rest
      simp only [hline] at hanswer
      cases next with
      | pass => exact hpass hanswer rfl honly
      | answer prepared =>
        cases hanswer
        exact ⟨.prepared hm rfl, honly⟩

/-- What a bench plays leaves only answers to the method prepared. -/
theorem OnlyPrepares.plays {events : List Event} (h : b.OnlyPrepares m)
    (hplays : Procedure.Plays Bench.answer b events b') : b'.OnlyPrepares m := by
  induction events generalizing b with
  | nil =>
    obtain rfl : b' = b := hplays
    exact h
  | cons e events ih =>
    cases e with
    | asked x => exact ih (answers_of_answer h rfl).2 hplays.2
    | changed c => exact ih h hplays

/-- So does a script that is run against a bench. -/
theorem OnlyPrepares.run {α : Type} (h : b.OnlyPrepares m) (x : Script α) :
    (b.run x).2.OnlyPrepares m := by
  induction x generalizing b with
  | done a => exact h
  | failed e => exact h
  | call request resume ih => exact ih _ (answers_of_answer h rfl).2

end Engine.Bench

/-! ## Trials -/

namespace Trial

/-- In a trial only answers to its method are ever prepared. -/
theorem onlyPrepares_after (registry : Attach.Registry) (m : Method) (actions : List Action) :
    (after registry m actions).bench.OnlyPrepares m := by
  induction actions using List.reverseRecOn with
  | nil => exact fun _ _ => ⟨rfl, rfl⟩
  | append_singleton actions a ih =>
    rw [after, List.foldl_append, List.foldl_cons, List.foldl_nil]
    rw [after] at ih
    generalize actions.foldl (act registry m) {} = t at ih ⊢
    cases a with
    | take step => exact ih.plays (Procedure.plays_run Bench.answer _ _)
    | version => exact ih.run Engine.version
    | put volume => exact ih
    | fix answer =>
      intro name hne
      refine ⟨?_, (ih name hne).2⟩
      rw [← (ih name hne).1]
      exact Table.find?_insert_of_ne _ hne _
    | line outcomes =>
      intro name hne
      refine ⟨(ih name hne).1, ?_⟩
      rw [← (ih name hne).2]
      exact Table.find?_insert_of_ne _ hne _
    | unprepare => exact fun _ _ => ⟨rfl, rfl⟩

end Trial

/-! ## Devices that are not made -/

namespace VirtioBlks

variable {b b' : Bench} {place : Place} {d : VirtioBlk}

/-- The creation has put limits on the volume of the device. -/
def Limited (d : VirtioBlk) (t : List Exchange) : Prop :=
  ∃ l, d.limits? = some l ∧ .granted (limitCall d l) ∈ t

/-- Limits are set in the simulated engine, or there is no such volume and nothing is changed. -/
theorem plays_setLimits (h : b.OnlyPrepares .createBlkController) {limits : Engine.VolumeLimits}
    {answer : Answer}
    (hanswer : b.answer (Method.setLimits.on Engine.VolumeLimits.codec limits) = (answer, b')) :
    (∃ row, b.engine.volumes.find? limits.name = some row ∧ answer = .ok (.bool true) ∧
        b'.engine = { b.engine with limits := b.engine.limits.insert limits.name limits }) ∨
      (b.engine.volumes.find? limits.name = none ∧ answer ≠ .ok (.bool true) ∧
        b'.engine = b.engine) := by
  cases (Bench.answers_of_answer h hanswer).1 with
  | prepared hm => cases hm
  | own hengine =>
    rcases b.engine.answer_setLimits limits with ⟨row, hrow, heq⟩ | ⟨e, hrow, heq⟩
    · rw [heq] at hengine ⊢
      exact .inl ⟨row, hrow, rfl, hengine⟩
    · rw [heq] at hengine ⊢
      exact .inr ⟨hrow, nofun, hengine⟩

/-- A vhost controller that is not made, for whatever reason, changes nothing. -/
theorem engine_eq_of_unattached (h : b.OnlyPrepares .createBlkController) {answer : Answer}
    (hno : answer ≠ .ok (.bool true)) (hanswer : b.answer (attachCall place d) = (answer, b')) :
    b'.engine = b.engine := by
  cases (Bench.answers_of_answer h hanswer).1 with
  | prepared _ hengine => exact hengine
  | own hengine =>
    rcases b.engine.answer_createBlkController ⟨place.id, d.volumeNameRef⟩ with
      ⟨-, heq⟩ | ⟨e, -, heq⟩
    · rw [attachCall, heq] at hno
      exact absurd rfl hno
    · rw [hengine, attachCall, heq]

/-- What the engine holds when limits have been set, the vhost controller has not been made, and the
limits have been lifted again. -/
theorem engine_of_lifted (h : b.OnlyPrepares .createBlkController) {l : Limits}
    {answer undone : Answer} (hanswer : answer ≠ .ok (.bool true))
    (hplays : Procedure.Plays Bench.answer b
      [.asked (.granted (limitCall d l)), .asked ⟨attachCall place d, answer⟩,
        .asked ⟨unlimitCall d, undone⟩] b') :
    b'.engine = { b.engine with
      limits := b.engine.limits.insert d.volumeNameRef { name := d.volumeNameRef } } := by
  obtain ⟨b₁, hlimit, hplays⟩ := Procedure.plays_asked_iff.1 hplays
  obtain ⟨b₂, hattach, hplays⟩ := Procedure.plays_asked_iff.1 hplays
  obtain ⟨b₃, hlift, rfl⟩ := Procedure.plays_asked_iff.1 hplays
  have h₁ := (Bench.answers_of_answer h hlimit).2
  have h₂ := (Bench.answers_of_answer h₁ hattach).2
  have hengine₂ := engine_eq_of_unattached h₁ hanswer hattach
  -- The volume is there, or the limits would not have been set; so they can also be lifted.
  rcases plays_setLimits h hlimit with ⟨row, hrow, -, hengine₁⟩ | ⟨-, hno, -⟩
  · rw [hengine₁] at hengine₂
    rcases plays_setLimits h₂ hlift with ⟨_, -, -, hengine₃⟩ | ⟨hnone, -, -⟩
    · rw [hengine₃, hengine₂]
      exact congrArg (fun limits => { b.engine with limits }) (Table.insert_insert _ _ _ _)
    · rw [hengine₂] at hnone
      exact absurd (hrow.symm.trans hnone) nofun
  · exact absurd rfl hno

/-- What the engine holds when a device is not made. The vhost controllers are as before. The volume
of the device is without limits if they were set, and all other limits are as before. -/
theorem engine_of_failed (h : b.OnlyPrepares .createBlkController) {t : List Exchange} {e : Fault}
    (hattempt : Attempt place d t (.error e))
    (hplays : Procedure.Plays Bench.answer b (t.map .asked) b') :
    b'.engine.vhosts = b.engine.vhosts ∧
      ((Limited d t ∧ ∀ volume, b'.engine.limitsOf volume =
          if volume = d.volumeNameRef then { name := d.volumeNameRef }
          else b.engine.limitsOf volume) ∨
        (¬ Limited d t ∧ ∀ volume, b'.engine.limitsOf volume = b.engine.limitsOf volume)) := by
  cases hattempt with
  | rejected why =>
    obtain rfl : b' = b := hplays
    exact ⟨rfl, .inr ⟨by simp [Limited], fun _ => rfl⟩⟩
  | @unlimited l answer hlimits hanswer =>
    obtain ⟨b₁, hlimit, rfl⟩ := Procedure.plays_asked_iff.1 hplays
    rcases plays_setLimits h hlimit with ⟨_, -, hyes, -⟩ | ⟨-, -, hengine⟩
    · exact absurd hyes hanswer
    · rw [hengine]
      refine ⟨rfl, .inr ⟨?_, fun _ => rfl⟩⟩
      rintro ⟨l', -, hmem⟩
      rw [List.mem_singleton] at hmem
      exact hanswer (congrArg Exchange.answer hmem).symm
  | @detached answer lifting hanswer hlifting =>
    rcases hlifting with ⟨hnone, rfl⟩ | ⟨⟨l, hl⟩, undone, rfl⟩
    · rw [limiting, hnone] at hplays
      obtain ⟨b₁, hattach, rfl⟩ := Procedure.plays_asked_iff.1 hplays
      rw [engine_eq_of_unattached h hanswer hattach]
      exact ⟨rfl, .inr ⟨by simp [Limited, hnone], fun _ => rfl⟩⟩
    · rw [Attempt.limiting_eq hl] at hplays ⊢
      rw [engine_of_lifted h hanswer hplays]
      exact ⟨rfl, .inl ⟨⟨l, hl, by simp⟩, b.engine.limitsOf_insert { name := d.volumeNameRef }⟩⟩

end VirtioBlks

/-- When a virtio-blk device is not made, for whatever reason, the vhost controllers of the engine
and the limits of all other volumes are as before. So are the limits of its own volume, exactly if
the creation has not set any or there were none before. -/
theorem Trial.limits_kept_iff (registry : Attach.Registry) (actions : List Trial.Action)
    (fresh parent id : String) (d : VirtioBlk) :
    let t := Trial.after registry .createBlkController actions
    let course :=
      (t.inventory.create registry .virtioBlk fresh parent d id).run Bench.answer t.bench
    let before := t.bench.engine
    let after := course.engine.engine
    course.result.isOk = false →
      after.vhosts = before.vhosts ∧
        (∀ volume, volume ≠ d.volumeNameRef → after.limitsOf volume = before.limitsOf volume) ∧
        ((∀ volume, after.limitsOf volume = before.limitsOf volume) ↔
          (VirtioBlks.Limited d (exchanges course.events) →
            before.limitsOf d.volumeNameRef = { name := d.volumeNameRef })) := by
  intro t course before after hfailed
  have honly : t.bench.OnlyPrepares .createBlkController := onlyPrepares_after registry _ actions
  have hplays : Procedure.Plays Bench.answer t.bench ((exchanges course.events).map .asked)
      course.engine :=
    Procedure.plays_exchanges (Procedure.plays_run Bench.answer _ _)
  obtain ⟨hvhosts, ⟨hlimited, hlimits⟩ | ⟨hlimited, hlimits⟩⟩ :
      after.vhosts = before.vhosts ∧
        ((VirtioBlks.Limited d (exchanges course.events) ∧ ∀ volume, after.limitsOf volume =
            if volume = d.volumeNameRef then { name := d.volumeNameRef }
            else before.limitsOf volume) ∨
          (¬ VirtioBlks.Limited d (exchanges course.events) ∧
            ∀ volume, after.limitsOf volume = before.limitsOf volume)) := by
    rcases course_of_create registry Bench.answer t.bench fresh t.inventory .virtioBlk parent d id
      with hnil | ⟨place, -, hgo, -⟩
    · rw [show exchanges course.events = [] from hnil] at hplays ⊢
      have hsame : course.engine = t.bench := hplays
      exact ⟨congrArg (·.engine.vhosts) hsame, .inr ⟨by simp [VirtioBlks.Limited],
        fun volume => congrArg (·.engine.limitsOf volume) hsame⟩⟩
    · cases hresult : course.result with
      | ok made =>
        rw [hresult] at hfailed
        cases hfailed
      | error e =>
        rw [show _ = Except.error e from hresult] at hgo
        exact VirtioBlks.engine_of_failed honly (VirtioBlks.attempt_of_goes hgo) hplays
  · refine ⟨hvhosts, fun volume hvolume => (hlimits volume).trans (if_neg hvolume), ?_⟩
    constructor
    · intro h _
      rw [← h, hlimits, if_pos rfl]
    · intro h volume
      rw [hlimits]
      split
      · rename_i hvolume
        rw [hvolume, h hlimited]
      · rfl
  · exact ⟨hvhosts, fun volume _ => hlimits volume,
      fun _ hl => absurd hl hlimited, fun _ volume => hlimits volume⟩

/-- The engine declines the controller of the first device on a volume. The limits of the volume have
been set for it and are lifted, so that all volumes are as before. -/
theorem Trial.limits_kept_declined :
    let t := Trial.after {} .createBlkController
      [.put { name := "Malloc0" }, .fix (.error (.declined (-17) "File exists"))]
    let d : VirtioBlk := { volumeNameRef := "Malloc0", maxLimit := some { rwIopsKiops := 2 } }
    let course := (t.inventory.create {} .virtioBlk "" "" d "a").run Bench.answer t.bench
    course.result = .error (.declined (-17) "File exists") ∧
      (exchanges course.events).map (·.request.method) =
        [.setLimits, .createBlkController, .setLimits] ∧
      ∀ volume, course.engine.engine.limitsOf volume = t.bench.engine.limitsOf volume := by
  intro t d course
  have hresult : course.result = .error (.declined (-17) "File exists") := by decide +kernel
  have hunlimited : t.bench.engine.limitsOf "Malloc0" = { name := "Malloc0" } := by decide +kernel
  have hfailed : course.result.isOk = false := by rw [hresult]; rfl
  exact ⟨hresult, by decide +kernel,
    (Trial.limits_kept_iff {} _ "" "" "a" d hfailed).2.2.2 fun _ => hunlimited⟩

/-- A volume that is limited for one device is limited again for a second one, whose id is that of a
SCSI controller. -/
def Trial.sharing : List Trial.Action :=
  let limited : VirtioBlk := { volumeNameRef := "Malloc0", maxLimit := some { rwIopsKiops := 1 } }
  [.put { name := "Malloc0" }, .take ⟨.virtioBlk, .create "" limited "a", 0⟩,
   .take ⟨.scsiController, .create "" {} "b", 0⟩]

/-- The second device is not made, and the limits of the first one are gone. -/
theorem Trial.not_limits_kept_sharing :
    let t := Trial.after {} .createBlkController Trial.sharing
    let d : VirtioBlk := { volumeNameRef := "Malloc0", maxLimit := some { rwIopsKiops := 2 } }
    let course := (t.inventory.create {} .virtioBlk "" "" d "b").run Bench.answer t.bench
    course.result.isOk = false ∧
      t.inventory.virtioBlks.keys = ["//storage.bridge.dev/virtioBlks/a"] ∧
      (t.bench.engine.limitsOf "Malloc0").rwIosPerSec = 1000 ∧
        (course.engine.engine.limitsOf "Malloc0").rwIosPerSec = 0 := by
  decide +kernel

end StorageControl
