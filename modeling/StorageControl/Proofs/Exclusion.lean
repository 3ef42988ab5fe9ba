/-
# Creations of one record exclude each other

However many requests create a record under one name at the same time, at most one of them talks to
the engine at a time. The first one that succeeds keeps the record, and from then on no request calls
the engine: each one that is not turned down returns the record that is kept. What carries this is
that only the holder of the lock is at work, and that all that is left to do for it is known: while
nothing is kept under the name it is a script and the keeping of what the script makes, and when a
record is kept it is to return that record.
-/
import StorageControl.Inventory.Contest
import StorageControl.Proofs.Operation

namespace StorageControl

open Engine (Answer Call Script)

/-! ## What a request does with the lock -/

namespace Creation

variable {k : Kind} {registry : Attach.Registry} {request : Creation k}

/-- What is left to do for a record that a script makes. -/
def making (name : String) (x : Script k.Record) : Procedure k.Record :=
  (Procedure.ofScript x).bind fun made => (Procedure.make (.keep k name made)).bind fun _ =>
    .done made

/-- With the lock a request that does not fit fails. -/
theorem procedure_of_error {why : Rejection}
    (h : request.place registry = .error why) (inv : Inventory) :
    request.procedure registry inv = .failed (.rejected why) := by
  unfold place at h
  simp [procedure, Inventory.create, h, Script.check, Procedure.ofScript]

/-- With the lock a request whose record is kept returns it. -/
theorem procedure_of_kept {place : Place}
    (h : request.place registry = .ok place) {inv : Inventory} {kept : k.Record}
    (hkept : inv.find? k place.name = some kept) :
    request.procedure registry inv = .done kept := by
  unfold Creation.place at h
  simp [procedure, Inventory.create, h, hkept, Script.check, Procedure.ofScript]

/-- With the lock a request whose record is not kept makes it. -/
theorem procedure_of_new {place : Place}
    (h : request.place registry = .ok place) {inv : Inventory}
    (hnew : inv.find? k place.name = none) :
    request.procedure registry inv =
      making place.name ((k.family registry).make inv place request.record) := by
  unfold Creation.place at h
  simp [procedure, Inventory.create, h, hnew, Script.check, Procedure.ofScript, making]

end Creation

open Creation (making)

namespace Contest

variable {ι : Type} [DecidableEq ι] {k : Kind} {registry : Attach.Registry}
  {requests : ι → Creation k} {c c' : Contest ι k} {i j : ι} {name : String}

/-! ## Stages -/

/-- The request whose doing a mark is. -/
def Mark.of : Mark ι → ι
  | .asked i _ | .heard i _ | .changed i _ => i

/-- The request has the lock. -/
def Stage.Busy : Stage k → Prop
  | .working _ | .asking _ _ => True
  | .arrived | .waiting | .ended _ => False

/-- The request has taken the lock or is over. -/
def Stage.Begun : Stage k → Prop
  | .working _ | .asking _ _ | .ended _ => True
  | .arrived | .waiting => False

@[simp] theorem stage_put_self (c : Contest ι k) (i : ι) (stage : Stage k) :
    (c.put i stage).stage i = stage := by
  show Function.update c.stage i stage i = stage
  rw [Function.update_self]

theorem stage_put_of_ne (c : Contest ι k) (stage : Stage k) (h : j ≠ i) :
    (c.put i stage).stage j = c.stage j := by
  show Function.update c.stage i stage j = c.stage j
  rw [Function.update_of_ne h]

/-- Work of one request leaves the others at their stages. -/
theorem stage_work_of_ne (c : Contest ι k) (rest : Procedure k.Record) (h : j ≠ i) :
    (c.work i rest).stage j = c.stage j := by
  cases rest <;> exact stage_put_of_ne c _ h

/-! ## Steps -/

/-- What a step of a request can be. -/
inductive Moved (registry : Attach.Registry) (requests : ι → Creation k) (c : Contest ι k) (i : ι) :
    Contest ι k → Prop
  /-- It is turned down. -/
  | rejected {why : Rejection} (hstage : c.stage i = .arrived)
      (hplace : (requests i).place registry = .error why) :
      Moved registry requests c i (c.put i (.ended (.error (.rejected why))))
  /-- It passes the checks. -/
  | checked {place : Place} (hstage : c.stage i = .arrived)
      (hplace : (requests i).place registry = .ok place) :
      Moved registry requests c i (c.put i .waiting)
  /-- It takes the lock. -/
  | taken (hstage : c.stage i = .waiting) (hfree : c.holder = none) :
      Moved registry requests c i
        { c.put i (.working ((requests i).procedure registry c.inventory)) with holder := some i }
  /-- It does what comes next. -/
  | worked {rest : Procedure k.Record} (hstage : c.stage i = .working rest) :
      Moved registry requests c i (c.work i rest)
  /-- Its call is answered. -/
  | heard {request : Call} {resume : Answer → Procedure k.Record} {answer : Answer}
      (hstage : c.stage i = .asking request resume) :
      Moved registry requests c i ((c.put i (.working (resume answer))).note (.heard i answer))

/-- A step that is taken is one of these. -/
theorem exists_moved {m : Move ι} (h : c.move registry requests m = some c') :
    ∃ i, Moved registry requests c i c' := by
  cases m with
  | go i =>
    refine ⟨i, ?_⟩
    cases hstage : c.stage i with
    | arrived =>
      cases hplace : (requests i).place registry with
      | error why =>
        simp only [move, hstage, hplace, Option.some.injEq] at h
        exact h ▸ .rejected hstage hplace
      | ok place =>
        simp only [move, hstage, hplace, Option.some.injEq] at h
        exact h ▸ .checked hstage hplace
    | waiting =>
      simp only [move, hstage] at h
      split at h
      · rename_i hfree
        exact Option.some.inj h ▸ .taken hstage (Option.isNone_iff_eq_none.1 hfree)
      · cases h
    | working rest =>
      simp only [move, hstage, Option.some.injEq] at h
      exact h ▸ .worked hstage
    | asking request resume =>
      simp only [move, hstage] at h
      cases h
    | ended result =>
      simp only [move, hstage] at h
      cases h
  | hear i answer =>
    refine ⟨i, ?_⟩
    cases hstage : c.stage i with
    | asking request resume =>
      simp only [move, hstage, Option.some.injEq] at h
      exact h ▸ .heard hstage
    | arrived | waiting | working | ended =>
      simp only [move, hstage] at h
      cases h

/-- What every step keeps holds after all steps that can be taken. -/
theorem run_invariant {P : Contest ι k → Prop}
    (hstep : ∀ {c c' i}, P c → Moved registry requests c i c' → P c') {moves : List (Move ι)}
    (hstart : P c) (h : c.run registry requests moves = some c') : P c' := by
  induction moves generalizing c with
  | nil =>
    obtain rfl : c = c' := Option.some.inj h
    exact hstart
  | cons m moves ih =>
    obtain ⟨next, hnext, hrest⟩ := Option.bind_eq_some_iff.1 h
    obtain ⟨i, hmoved⟩ := exists_moved hnext
    exact ih (hstep hstart hmoved) hrest

/-! ## The lock -/

/-- Only the holder of the lock is at work, and only those that have begun have made calls. -/
structure Locked (c : Contest ι k) : Prop where
  held : ∀ i, (c.stage i).Busy → c.holder = some i
  begun : ∀ i request, .asked i request ∈ c.history → (c.stage i).Begun

omit [DecidableEq ι] in
theorem Locked.start (inv : Inventory) : (start inv : Contest ι k).Locked where
  held _ h := h.elim
  begun _ _ h := by cases h

omit [DecidableEq ι] in
theorem Locked.holder_of_busy (h : c.Locked) {stage : Stage k} (hstage : c.stage i = stage)
    (hbusy : stage.Busy) : c.holder = some i :=
  h.held i (hstage ▸ hbusy)

/-- When one request gets to another stage and the lock and the calls fit, the lock is kept. -/
theorem Locked.of_stages (h : c.Locked) {stage : Stage k} (hself : c'.stage i = stage)
    (hothers : ∀ j, j ≠ i → c'.stage j = c.stage j)
    (hholder : ∀ j, j ≠ i → c.holder = some j → c'.holder = some j)
    (hbusy : stage.Busy → c'.holder = some i)
    (hcalls : ∀ j request, .asked j request ∈ c'.history →
      .asked j request ∈ c.history ∨ j = i)
    (hbegun : (∃ request, .asked i request ∈ c'.history) → stage.Begun) : c'.Locked where
  held j hj := by
    by_cases hji : j = i
    · subst hji
      rw [hself] at hj
      exact hbusy hj
    · rw [hothers j hji] at hj
      exact hholder j hji (h.held j hj)
  begun j request hmem := by
    by_cases hji : j = i
    · subst hji
      rw [hself]
      exact hbegun ⟨request, hmem⟩
    · rw [hothers j hji]
      rcases hcalls j request hmem with hmem | hji'
      · exact h.begun j request hmem
      · exact absurd hji' hji

omit [DecidableEq ι] in
/-- Of what has been noted, only a call is one. -/
theorem asked_mem_append {mark : Mark ι} {request : Call}
    (h : .asked j request ∈ c.history ++ [mark]) :
    .asked j request ∈ c.history ∨ mark = .asked j request := by
  rcases List.mem_append.1 h with hmem | hmem
  · exact .inl hmem
  · exact .inr (List.mem_singleton.1 hmem).symm

/-- A step keeps the lock. -/
theorem Locked.moved (h : c.Locked) (hmoved : Moved registry requests c i c') : c'.Locked := by
  have hput (stage : Stage k) (j : ι) (hj : j ≠ i) := stage_put_of_ne c stage hj
  have hwork (rest : Procedure k.Record) (j : ι) (hj : j ≠ i) := stage_work_of_ne c rest hj
  cases hmoved with
  | rejected hstage hplace =>
    exact h.of_stages (stage_put_self c i _) (hput _) (fun _ _ hj => hj) False.elim
      (fun _ _ hmem => .inl hmem) fun _ => trivial
  | checked hstage hplace =>
    refine h.of_stages (stage_put_self c i _) (hput _) (fun _ _ hj => hj) False.elim
      (fun _ _ hmem => .inl hmem) ?_
    rintro ⟨request, hmem⟩
    have hbegun := h.begun i request hmem
    rwa [hstage] at hbegun
  | taken hstage hfree =>
    refine h.of_stages (stage_put_self c i _) (hput _) (fun j _ hj => ?_) (fun _ => rfl)
      (fun _ _ hmem => .inl hmem) fun _ => trivial
    rw [hfree] at hj
    cases hj
  | @worked rest hstage =>
    have hholder := h.holder_of_busy hstage trivial
    have hother (j : ι) (hj : j ≠ i) : c.holder ≠ some j := by
      rw [hholder]
      exact fun hsame => hj (Option.some.inj hsame).symm
    cases rest with
    | done a =>
      exact h.of_stages (stage_put_self c i _) (hwork _)
        (fun j hj hsame => absurd hsame (hother j hj)) False.elim
        (fun _ _ hmem => .inl hmem) fun _ => trivial
    | failed e =>
      exact h.of_stages (stage_put_self c i _) (hwork _)
        (fun j hj hsame => absurd hsame (hother j hj)) False.elim
        (fun _ _ hmem => .inl hmem) fun _ => trivial
    | call request resume =>
      refine h.of_stages (stage_put_self c i _) (hwork _) (fun _ _ hsame => hsame)
        (fun _ => hholder) (fun j request hmem => ?_) fun _ => trivial
      rcases asked_mem_append hmem with hmem | hmark
      · exact .inl hmem
      · cases hmark
        exact .inr rfl
    | change change rest =>
      refine h.of_stages (stage_put_self c i _) (hwork _) (fun _ _ hsame => hsame)
        (fun _ => hholder) (fun j request hmem => ?_) fun _ => trivial
      rcases asked_mem_append hmem with hmem | hmark
      · exact .inl hmem
      · cases hmark
  | heard hstage =>
    have hholder := h.holder_of_busy hstage trivial
    refine h.of_stages (stage_put_self c i _) (hput _) (fun _ _ hsame => hsame)
      (fun _ => hholder) (fun j request hmem => ?_) fun _ => trivial
    rcases asked_mem_append hmem with hmem | hmark
    · exact .inl hmem
    · cases hmark

/-! ## What is left to do -/

/-- A request is at a stage that it can be at while no record is kept under the name. -/
inductive Stage.Making (name : String) : Stage k → Prop
  | arrived : Making name .arrived
  | waiting : Making name .waiting
  | working (x : Script k.Record) : Making name (.working (making name x))
  | asking (request : Call) (resume : Answer → Script k.Record) :
      Making name (.asking request fun answer => making name (resume answer))
  | failed (e : Fault) : Making name (.ended (.error e))

/-- A request is at a stage that it can be at when a record is kept under the name. -/
inductive Stage.Returning (kept : k.Record) : Stage k → Prop
  | arrived : Returning kept .arrived
  | waiting : Returning kept .waiting
  | failing (e : Fault) : Returning kept (.working (.failed e))
  | returning : Returning kept (.working (.done kept))
  | failed (e : Fault) : Returning kept (.ended (.error e))
  | returned : Returning kept (.ended (.ok kept))

/-- A request that does not have the lock can be at its stage when a record is kept as well. -/
theorem Stage.Making.returning {stage : Stage k} (h : stage.Making name) (hidle : ¬ stage.Busy)
    (kept : k.Record) : stage.Returning kept := by
  cases h with
  | arrived => exact .arrived
  | waiting => exact .waiting
  | working x => exact absurd trivial hidle
  | asking request resume => exact absurd trivial hidle
  | failed e => exact .failed e

/-- All the records that are created belong under one name. -/
def Namesakes (registry : Attach.Registry) (requests : ι → Creation k) (name : String) : Prop :=
  ∀ i place, (requests i).place registry = .ok place → place.name = name

omit [DecidableEq ι] in
/-- What a request does with the lock while no record is kept is to make one, or to fail. -/
theorem Namesakes.making_procedure (h : Namesakes registry requests name) (i : ι)
    {inv : Inventory} (hnew : inv.find? k name = none) :
    ∃ x, (requests i).procedure registry inv = making name x := by
  cases hplace : (requests i).place registry with
  | error why => exact ⟨.failed (.rejected why), Creation.procedure_of_error hplace inv⟩
  | ok place =>
    obtain rfl := h i place hplace
    exact ⟨_, Creation.procedure_of_new hplace hnew⟩

omit [DecidableEq ι] in
/-- What a request does with the lock when a record is kept is to return it, or to fail. -/
theorem Namesakes.returning_procedure (h : Namesakes registry requests name) (i : ι)
    {inv : Inventory} {kept : k.Record} (hkept : inv.find? k name = some kept) :
    Stage.Returning kept (.working ((requests i).procedure registry inv)) := by
  cases hplace : (requests i).place registry with
  | error why =>
    rw [Creation.procedure_of_error hplace inv]
    exact .failing _
  | ok place =>
    obtain rfl := h i place hplace
    rw [Creation.procedure_of_kept hplace hkept]
    exact .returning

/-! ## The record under the name -/

/-- Either nothing has been kept under the name, and all requests may still be making a record, or
a record is kept, and all requests can only return it. -/
inductive Sound (name : String) (c : Contest ι k) : Prop
  | free (hnone : c.inventory.find? k name = none)
      (hunchanged : ∀ i change, .changed i change ∉ c.history)
      (hmaking : ∀ i, (c.stage i).Making name)
  | kept (kept : k.Record) (hkept : c.inventory.find? k name = some kept)
      (hreturning : ∀ i, (c.stage i).Returning kept)

omit [DecidableEq ι] in
theorem Sound.start (name : String) (inv : Inventory) :
    (Contest.start inv : Contest ι k).Sound name := by
  cases hfind : inv.find? k name with
  | none => exact .free hfind (fun i change hmem => by cases hmem) fun i => .arrived
  | some kept => exact .kept kept hfind fun i => .arrived

/-- All requests are at stages of one sort if the one that gets to another stage is. -/
theorem forall_stage {P : Stage k → Prop} {stage : Stage k} (h : ∀ j, P (c.stage j))
    (hself : c'.stage i = stage) (hothers : ∀ j, j ≠ i → c'.stage j = c.stage j)
    (hstage : P stage) : ∀ j, P (c'.stage j) := by
  intro j
  by_cases hji : j = i
  · subst hji
    rwa [hself]
  · rw [hothers j hji]
    exact h j

/-- When a record is kept, a step makes no call and changes nothing. -/
theorem Moved.of_kept (hmoved : Moved registry requests c i c')
    (hnames : Namesakes registry requests name) {kept : k.Record}
    (hkept : c.inventory.find? k name = some kept) (hall : ∀ j, (c.stage j).Returning kept) :
    c'.inventory = c.inventory ∧ c'.calls = c.calls ∧ ∀ j, (c'.stage j).Returning kept := by
  have hput (stage : Stage k) (j : ι) (hj : j ≠ i) := stage_put_of_ne c stage hj
  have hstage' := hall i
  cases hmoved with
  | rejected hstage hplace =>
    exact ⟨rfl, rfl, forall_stage hall (stage_put_self c i _) (hput _) (.failed _)⟩
  | checked hstage hplace =>
    exact ⟨rfl, rfl, forall_stage hall (stage_put_self c i _) (hput _) .waiting⟩
  | taken hstage hfree =>
    exact ⟨rfl, rfl, forall_stage hall (stage_put_self c i _) (hput _)
      (hnames.returning_procedure i hkept)⟩
  | worked hstage =>
    rw [hstage] at hstage'
    cases hstage' with
    | failing e =>
      exact ⟨rfl, rfl, forall_stage hall (stage_put_self c i _) (hput _) (.failed e)⟩
    | returning =>
      exact ⟨rfl, rfl, forall_stage hall (stage_put_self c i _) (hput _) .returned⟩
  | heard hstage =>
    rw [hstage] at hstage'
    cases hstage'

/-- While nothing is kept, a step leaves that so, or the holder of the lock keeps a record. -/
theorem Moved.of_free (hmoved : Moved registry requests c i c')
    (hnames : Namesakes registry requests name) (hlocked : c.Locked)
    (hnone : c.inventory.find? k name = none)
    (hunchanged : ∀ i change, .changed i change ∉ c.history)
    (hall : ∀ j, (c.stage j).Making name) : c'.Sound name := by
  have hput (stage : Stage k) (j : ι) (hj : j ≠ i) := stage_put_of_ne c stage hj
  have hnoted {mark : Mark ι} (hmark : ∀ i change, mark ≠ .changed i change) (j : ι)
      (change : Change) : .changed j change ∉ c.history ++ [mark] := by
    rw [List.mem_append, List.mem_singleton, not_or]
    exact ⟨hunchanged j change, (hmark j change).symm⟩
  have hstage' := hall i
  cases hmoved with
  | rejected hstage hplace =>
    exact .free hnone hunchanged (forall_stage hall (stage_put_self c i _) (hput _) (.failed _))
  | checked hstage hplace =>
    exact .free hnone hunchanged (forall_stage hall (stage_put_self c i _) (hput _) .waiting)
  | taken hstage hfree =>
    obtain ⟨x, hx⟩ := hnames.making_procedure i hnone
    have hmaking : Stage.Making name (.working ((requests i).procedure registry c.inventory)) := by
      rw [hx]
      exact .working x
    exact .free hnone hunchanged (forall_stage hall (stage_put_self c i _) (hput _) hmaking)
  | worked hstage =>
    have hholder := hlocked.holder_of_busy hstage trivial
    rw [hstage] at hstage'
    cases hstage' with
    | working x =>
      cases x with
      | done made =>
        -- The others wait for the lock or are over, so that they can go on when this is kept.
        refine .kept made (c.inventory.find?_keep_self k name made) fun j => ?_
        by_cases hji : j = i
        · subst hji
          show ((c.put j (.working (.done made))).stage j).Returning made
          rw [stage_put_self]
          exact .returning
        · show ((c.put i (.working (.done made))).stage j).Returning made
          rw [hput _ j hji]
          refine (hall j).returning (fun hbusy => hji ?_) made
          exact Option.some.inj ((hlocked.held j hbusy).symm.trans hholder)
      | failed e =>
        exact .free hnone hunchanged
          (forall_stage hall (stage_put_self c i _) (hput _) (.failed e))
      | call request resume =>
        exact .free hnone (hnoted nofun)
          (forall_stage hall (stage_put_self c i _) (hput _) (.asking request resume))
  | heard hstage =>
    rw [hstage] at hstage'
    cases hstage' with
    | asking request resume =>
      exact .free hnone (hnoted nofun)
        (forall_stage hall (stage_put_self c i _) (hput _) (.working _))

/-! ## Runs -/

/-- After all steps that can be taken the lock is kept, and the requests are where they can be. -/
theorem sound_run (hnames : Namesakes registry requests name) {moves : List (Move ι)}
    (hlocked : c.Locked) (hsound : c.Sound name) (h : c.run registry requests moves = some c') :
    c'.Locked ∧ c'.Sound name := by
  refine run_invariant (P := fun d => d.Locked ∧ d.Sound name) ?_ ⟨hlocked, hsound⟩ h
  rintro d d' i ⟨hlocked, hsound⟩ hmoved
  refine ⟨hlocked.moved hmoved, ?_⟩
  cases hsound with
  | free hnone hunchanged hmaking => exact hmoved.of_free hnames hlocked hnone hunchanged hmaking
  | kept kept hkept hreturning =>
    obtain ⟨hsame, -, hreturning⟩ := hmoved.of_kept hnames hkept hreturning
    exact .kept kept (hsame ▸ hkept) hreturning

/-- When a record is kept, no steps make a call. -/
theorem calls_run (hnames : Namesakes registry requests name) {kept : k.Record}
    (hkept : c.inventory.find? k name = some kept) (hsound : c.Sound name) {moves : List (Move ι)}
    (h : c.run registry requests moves = some c') : c'.calls = c.calls := by
  cases hsound with
  | free hnone hunchanged hmaking =>
    rw [hkept] at hnone
    cases hnone
  | kept found hfound hreturning =>
    have hall : c'.inventory = c.inventory ∧ c'.calls = c.calls ∧
        ∀ j, (c'.stage j).Returning found := by
      refine run_invariant (P := fun d => d.inventory = c.inventory ∧ d.calls = c.calls ∧
        ∀ j, (d.stage j).Returning found) ?_ ⟨rfl, rfl, hreturning⟩ h
      rintro d d' i ⟨hinventory, hcalls, hreturning⟩ hmoved
      obtain ⟨hinventory', hcalls', hreturning'⟩ :=
        hmoved.of_kept hnames (hinventory ▸ hfound) hreturning
      exact ⟨hinventory'.trans hinventory, hcalls'.trans hcalls, hreturning'⟩
    exact hall.2.1

/-- What a request has done. -/
def marksOf (c : Contest ι k) (i : ι) : List (Mark ι) :=
  c.history.filter fun mark => mark.of = i

/-- A step leaves the other requests at their stages, and it is none of their doing. -/
theorem Moved.others (hmoved : Moved registry requests c i c') (hji : j ≠ i) :
    c'.stage j = c.stage j ∧ c'.marksOf j = c.marksOf j := by
  have hnoted {mark : Mark ι} (hmark : mark.of = i) :
      (c.history ++ [mark]).filter (fun mark => mark.of = j) =
        c.history.filter fun mark => mark.of = j := by
    have hne : ¬ mark.of = j := hmark ▸ hji.symm
    simp [hne]
  cases hmoved with
  | rejected | checked | taken => exact ⟨stage_put_of_ne c _ hji, rfl⟩
  | @worked rest hstage =>
    cases rest with
    | done a => exact ⟨stage_put_of_ne c _ hji, rfl⟩
    | failed e => exact ⟨stage_put_of_ne c _ hji, rfl⟩
    | call request resume => exact ⟨stage_put_of_ne c _ hji, hnoted rfl⟩
    | change change rest => exact ⟨stage_put_of_ne c _ hji, hnoted rfl⟩
  | heard hstage => exact ⟨stage_put_of_ne c _ hji, hnoted rfl⟩

/-- A request that is over does nothing any more. -/
theorem marksOf_run_of_ended {result : Except Fault k.Record} (hended : c.stage i = .ended result)
    {moves : List (Move ι)} (h : c.run registry requests moves = some c') :
    c'.marksOf i = c.marksOf i := by
  have hall : c'.stage i = .ended result ∧ c'.marksOf i = c.marksOf i := by
    refine run_invariant (P := fun d => d.stage i = .ended result ∧ d.marksOf i = c.marksOf i) ?_
      ⟨hended, rfl⟩ h
    rintro d d' j ⟨hended, hmarks⟩ hmoved
    by_cases hij : i = j
    · subst hij
      cases hmoved with
      | rejected hstage | checked hstage | taken hstage | worked hstage | heard hstage =>
        rw [hended] at hstage
        cases hstage
    · obtain ⟨hstage, hmarks'⟩ := hmoved.others hij
      exact ⟨hstage.trans hended, hmarks'.trans hmarks⟩
  exact hall.2

/-- A request is between its first call and its last one: it has made a call, and steps can follow in
which it makes another one or hears an answer. -/
def Midst (registry : Attach.Registry) (requests : ι → Creation k) (c : Contest ι k) (i : ι) :
    Prop :=
  (∃ request, .asked i request ∈ c.history) ∧
    ∃ moves later c', c.run registry requests moves = some c' ∧ c'.history = c.history ++ later ∧
      ((∃ request, .asked i request ∈ later) ∨ ∃ answer, .heard i answer ∈ later)

/-- A request between its first call and its last one holds the lock. -/
theorem Locked.holder_of_midst (h : c.Locked) (hmidst : c.Midst registry requests i) :
    c.holder = some i := by
  obtain ⟨⟨request, hasked⟩, moves, later, c', hrun, hhistory, hlater⟩ := hmidst
  have hbegun := h.begun i request hasked
  apply h.held i
  cases hstage : c.stage i with
  | arrived | waiting =>
    rw [hstage] at hbegun
    exact hbegun.elim
  | working | asking => trivial
  | ended result =>
    have hmarks := marksOf_run_of_ended hstage hrun
    rw [marksOf, marksOf, hhistory, List.filter_append, List.append_right_eq_self] at hmarks
    have hnone (mark : Mark ι) (hmem : mark ∈ later) : mark.of ≠ i := by
      simpa using List.filter_eq_nil_iff.1 hmarks mark hmem
    rcases hlater with ⟨_, hmem⟩ | ⟨_, hmem⟩
    · exact absurd rfl (hnone _ hmem)
    · exact absurd rfl (hnone _ hmem)

/-! ## Creations of one record -/

omit [DecidableEq ι] in
theorem stage_of_result? {result : Except Fault k.Record} (h : c.result? i = some result) :
    c.stage i = .ended result := by
  unfold result? at h
  split at h
  · rename_i hstage
    rw [hstage, Option.some.inj h]
  all_goals cases h

omit [DecidableEq ι] in
/-- A record that has been returned is the one that is kept. -/
theorem Sound.kept_of_result? (h : c.Sound name) {r : k.Record}
    (hresult : c.result? i = some (.ok r)) : c.inventory.find? k name = some r := by
  have hstage := stage_of_result? hresult
  cases h with
  | free hnone hunchanged hmaking =>
    have hmaking := hmaking i
    rw [hstage] at hmaking
    cases hmaking
  | kept kept hkept hreturning =>
    have hreturning := hreturning i
    rw [hstage] at hreturning
    cases hreturning
    exact hkept

omit [DecidableEq ι] in
/-- When a request has changed what is kept, a record is kept under the name. -/
theorem Sound.kept_of_changed (h : c.Sound name) {change : Change}
    (hchanged : .changed i change ∈ c.history) : ∃ kept, c.inventory.find? k name = some kept := by
  cases h with
  | free hnone hunchanged hmaking => exact absurd hchanged (hunchanged i change)
  | kept kept hkept hreturning => exact ⟨kept, hkept⟩

omit [DecidableEq ι] in
/-- Requests with one id create subsystems of one name. -/
theorem namesakes_of_id {requests : ι → Creation .subsystem} {id : String} (hid : id ≠ "")
    (hids : ∀ i, (requests i).id = id) :
    Namesakes registry requests (Name.compose .subsystem "" id) := by
  intro i place hplace
  obtain ⟨owner, own, -, -, hown, rfl⟩ := Family.eq_under_of_place hplace
  rw [hids i] at hown
  rcases Place.eq_of_idOf hown with ⟨hempty, -⟩ | ⟨rfl, -⟩
  · exact absurd hempty hid
  · rfl

/-- However many requests create subsystems with one id at the same time, in whatever order their
steps come and whatever the engine answers: when one of them has kept its record, or has returned
one, no steps that can follow make another call; all records that are returned are the same; and
never are two requests between their first call and their last one. -/
theorem creations_exclude (registry : Attach.Registry) (inv : Inventory)
    (requests : ι → Creation .subsystem) {id : String} (hid : id ≠ "")
    (hids : ∀ i, (requests i).id = id) {moves : List (Move ι)} {c : Contest ι .subsystem}
    (h : (start inv).run registry requests moves = some c) :
    ((∃ i change, .changed i change ∈ c.history) ∨ (∃ i r, c.result? i = some (.ok r)) →
      ∀ later c', c.run registry requests later = some c' → c'.calls = c.calls) ∧
    (∀ i j r q, c.result? i = some (.ok r) → c.result? j = some (.ok q) → r = q) ∧
    (∀ i j, c.Midst registry requests i → c.Midst registry requests j → i = j) := by
  have hnames : Namesakes registry requests (Name.compose .subsystem "" id) :=
    namesakes_of_id hid hids
  obtain ⟨hlocked, hsound⟩ := sound_run hnames (.start inv) (.start _ inv) h
  refine ⟨fun hsucceeded later c' hlater => ?_, fun i j r q hr hq => ?_, fun i j hi hj => ?_⟩
  · have hkept : ∃ kept, c.inventory.find? .subsystem (Name.compose .subsystem "" id) = some kept := by
      rcases hsucceeded with ⟨i, change, hchanged⟩ | ⟨i, r, hresult⟩
      · exact hsound.kept_of_changed hchanged
      · exact ⟨r, hsound.kept_of_result? hresult⟩
    obtain ⟨kept, hkept⟩ := hkept
    exact calls_run hnames hkept hsound hlater
  · have hboth := (hsound.kept_of_result? hr).symm.trans (hsound.kept_of_result? hq)
    exact Option.some.inj hboth
  · have hboth := (hlocked.holder_of_midst hi).symm.trans (hlocked.holder_of_midst hj)
    exact Option.some.inj hboth

/-- Two requests with one id and different records. -/
def racing (i : Bool) : Creation .subsystem where
  record := { spec := { nqn := "nqn.2022-09.io.spdk:one", serialNumber := if i then "A" else "B" } }
  id := "s1"

/-- The second request arrives before the first one asks the engine, and waits for the lock. -/
def turns : List (Move Bool) :=
  [.go true, .go false, .go true, .go true, .hear true (.ok (.bool true)), .go true,
    .hear true (.ok (Engine.Version.codec.encode { version := "v1" })), .go true, .go true,
    .go false, .go false]

/-- Both requests return the same record, and the engine has been asked twice when both are over. -/
theorem creations_exclude_racing :
    ∃ c r q, (start .empty).run {} racing turns = some c ∧ c.result? true = some (.ok r) ∧
      c.result? false = some (.ok q) ∧ r = q ∧ c.calls.length = 2 ∧
      ∀ later c', c.run {} racing later = some c' → c'.calls = c.calls := by
  let made : Subsystem :=
    { name := "//storage.bridge.dev/subsystems/s1"
      spec := { nqn := "nqn.2022-09.io.spdk:one", serialNumber := "A" }, status := some ⟨"v1"⟩ }
  have hruns : ((start .empty).run {} racing turns).map
      (fun c => (c.result? true, c.result? false, c.calls.length)) =
        some (some (.ok made), some (.ok made), 2) := by
    decide +kernel
  obtain ⟨c, hc, hfacts⟩ := Option.map_eq_some_iff.1 hruns
  obtain ⟨hfirst, hsecond, hlength⟩ : c.result? true = some (.ok made) ∧
      c.result? false = some (.ok made) ∧ c.calls.length = 2 := by
    simpa using hfacts
  have hid : "s1" ≠ "" := by decide
  obtain ⟨hcalls, hsame, -⟩ := creations_exclude {} .empty racing hid (fun _ => rfl) hc
  exact ⟨c, made, made, hc, hfirst, hsecond, hsame true false made made hfirst hsecond, hlength,
    hcalls (.inr ⟨true, made, hfirst⟩)⟩

end Contest

end StorageControl
