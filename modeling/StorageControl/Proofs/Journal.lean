/-
# What comes and goes along a run

A name enters the inventory exactly in the steps in which the engine confirms a creation under it,
and it leaves exactly in those in which the engine confirms the deletion of its record. So along a
run, and whatever the engine answers, creations and deletions of a name take turns, and the last of
them tells whether the name is kept.
-/
import Mathlib.Data.List.Chain
import StorageControl.Inventory.Run
import StorageControl.Proofs.Frame

namespace StorageControl

open Engine (Answer Call)

/-! ## Confirmations -/

/-- The exchange in an event, if it is one. -/
def Event.exchange? : Event → Option Exchange
  | .asked x => some x
  | .changed _ => none

/-- The exchanges among events. -/
def exchanges (events : List Event) : List Exchange :=
  events.filterMap Event.exchange?

/-- Among the exchanges a call is answered in a certain way. -/
def answered (t : List Exchange) (call : Call) (p : Answer → Bool) : Bool :=
  t.any fun x => decide (x.request = call) && p x.answer

theorem answered_iff {t : List Exchange} {call : Call} {p : Answer → Bool} :
    answered t call p = true ↔ ∃ answer, ⟨call, answer⟩ ∈ t ∧ p answer = true := by
  simp only [answered, List.any_eq_true, Bool.and_eq_true, decide_eq_true_eq]
  constructor
  · rintro ⟨⟨request, answer⟩, hx, rfl, hp⟩
    exact ⟨answer, hx, hp⟩
  · rintro ⟨answer, hx, hp⟩
    exact ⟨_, hx, rfl, hp⟩

/-- A call that makes or removes an object is not among exchanges that leave the objects alone. -/
theorem answered_eq_false_of_keepsObjects {t : List Exchange} (ht : KeepsObjects t) {call : Call}
    (hcall : call.method.keepsObjects = false) (p : Answer → Bool) :
    answered t call p = false := by
  rw [Bool.eq_false_iff, Ne, answered_iff]
  rintro ⟨answer, hx, -⟩
  have hkeeps := ht _ hx
  rw [hcall] at hkeeps
  cases hkeeps

@[simp] theorem answered_nil (call : Call) (p : Answer → Bool) : answered [] call p = false := rfl

@[simp] theorem answered_cons (x : Exchange) (t : List Exchange) (call : Call)
    (p : Answer → Bool) :
    answered (x :: t) call p = (decide (x.request = call) && p x.answer || answered t call p) :=
  rfl

@[simp] theorem answered_append (l m : List Exchange) (call : Call) (p : Answer → Bool) :
    answered (l ++ m) call p = (answered l call p || answered m call p) :=
  List.any_append

/-- A subsystem is finished when its host may connect, if it has one, and the engine has told its
version. Other objects are finished when they are made. -/
def finished : (k : Kind) → (draft : k.Record) → List Exchange → Bool
  | .subsystem, s, t =>
    (s.spec.hostnqn.all fun host => answered t (Subsystems.hostCall s.spec host) (·.isTrue)) &&
      answered t ⟨.getVersion, none⟩ fun answer => (answer.read? Engine.Version.codec).isSome
  | _, _, _ => true

/-- The engine confirms the creation of a draft at a place. -/
def confirmsCreation (registry : Attach.Registry) (inv : Inventory) (place : Place) (k : Kind)
    (draft : k.Record) (t : List Exchange) : Bool :=
  (creation registry inv place k draft).any (fun call => answered t call (·.affirms k)) &&
    finished k draft t

/-- The engine confirms the deletion of a record under a name. -/
def confirmsDeletion (registry : Attach.Registry) (inv : Inventory) (name : String) (k : Kind)
    (record : k.Record) (t : List Exchange) : Bool :=
  (removal registry inv name k record).any fun call => answered t call (·.isTrue)

/-- The number of a record is the one in an answer. -/
def BearsNumber : (k : Kind) → k.Record → Answer → Prop
  | .nvmeNamespace, n, answer => answer.read? .int32 = some n.spec.hostNsid
  | .scsiLun, l, answer => answer.read? .int32 = some l.targetNum
  | _, _, _ => True

/-- When a record is made the engine has affirmed the call for it, and the record bears the number
in the answer. -/
theorem Made.affirmed {registry : Attach.Registry} {inv : Inventory} {place : Place} {k : Kind}
    {draft made : k.Record} {t : List Exchange} (h : Made registry inv place k draft made t) :
    ∃ call answer, creation registry inv place k draft = some call ∧ ⟨call, answer⟩ ∈ t ∧
      answer.affirms k = true ∧ BearsNumber k made answer := by
  cases h with
  | subsystem hversion => exact ⟨_, _, rfl, List.mem_cons_self, rfl, trivial⟩
  | controller hparent hlistener =>
    refine ⟨_, _, ?_, List.mem_singleton_self _, rfl, trivial⟩
    simp [creation, hparent, hlistener, Except.toOption]
  | nvmeNamespace hparent hnsid hpos =>
    refine ⟨_, _, ?_, List.mem_singleton_self _, ?_, hnsid⟩
    · simp [creation, hparent]
    · simp [Answer.affirms, hnsid, hpos]
  | virtioBlk hparams hbefore =>
    refine ⟨_, _, ?_, List.mem_append_right _ (List.mem_singleton_self _), rfl, trivial⟩
    simp [creation, hparams, Except.toOption]
  | scsiController hparams =>
    refine ⟨_, _, ?_, List.mem_singleton_self _, rfl, trivial⟩
    simp [creation, hparams, Except.toOption]
  | scsiLun hparent htarget hnonneg =>
    refine ⟨_, _, ?_, List.mem_singleton_self _, ?_, htarget⟩
    · simp [creation, hparent]
    · simp [Answer.affirms, htarget, hnonneg]

theorem Made.finished {registry : Attach.Registry} {inv : Inventory} {place : Place} {k : Kind}
    {draft made : k.Record} {t : List Exchange} (h : Made registry inv place k draft made t) :
    finished k draft t = true := by
  cases h with
  | @subsystem s answer version hversion =>
    have hread : (answer.read? Engine.Version.codec).isSome = true := by rw [hversion]; rfl
    cases hhost : s.spec.hostnqn with
    | none => simp [StorageControl.finished, hhost, hread]
    | some host =>
      have htrue : Answer.isTrue (.ok (.bool true)) = true := rfl
      simp [StorageControl.finished, Subsystems.hosting, hhost, hread, Exchange.granted, htrue]
  | controller | nvmeNamespace | virtioBlk | scsiController | scsiLun => rfl

theorem Made.confirms {registry : Attach.Registry} {inv : Inventory} {place : Place} {k : Kind}
    {draft made : k.Record} {t : List Exchange} (h : Made registry inv place k draft made t) :
    confirmsCreation registry inv place k draft t = true := by
  obtain ⟨call, answer, hcall, hmem, haffirms, -⟩ := h.affirmed
  rw [confirmsCreation, h.finished, hcall, Option.any_some, Bool.and_true, answered_iff]
  exact ⟨answer, hmem, haffirms⟩

theorem not_confirmsCreation_of_keepsObjects {registry : Attach.Registry} {inv : Inventory}
    {place : Place} {k : Kind} {draft : k.Record} {t : List Exchange} (ht : KeepsObjects t) :
    confirmsCreation registry inv place k draft t = false := by
  rw [confirmsCreation]
  cases hcall : creation registry inv place k draft with
  | none => rfl
  | some call =>
    rw [Option.any_some, answered_eq_false_of_keepsObjects ht (method_of_creation hcall),
      Bool.false_and]

theorem not_confirmsDeletion_of_keepsObjects {registry : Attach.Registry} {inv : Inventory}
    {name : String} {k : Kind} {record : k.Record} {t : List Exchange} (ht : KeepsObjects t) :
    confirmsDeletion registry inv name k record t = false := by
  rw [confirmsDeletion]
  cases hcall : removal registry inv name k record with
  | none => rfl
  | some call =>
    rw [Option.any_some, answered_eq_false_of_keepsObjects ht (method_of_removal hcall)]

theorem Unmade.not_confirms {registry : Attach.Registry} {inv : Inventory} {place : Place}
    {k : Kind} {draft : k.Record} {t : List Exchange}
    (h : Unmade registry inv place k draft t) :
    confirmsCreation registry inv place k draft t = false := by
  cases h with
  | unasked ht => exact not_confirmsCreation_of_keepsObjects ht
  | refused hcall hanswer hbefore hafter =>
    have hmethod := method_of_creation hcall
    rw [confirmsCreation, hcall, Option.any_some, answered_append, answered_cons,
      answered_eq_false_of_keepsObjects hbefore hmethod,
      answered_eq_false_of_keepsObjects hafter hmethod, hanswer]
    simp
  | hostless hhost hanswer =>
    -- The only call for the host is the one that is not granted.
    have hfalse := hanswer
    rw [Ne, ← Answer.isTrue_iff, Bool.not_eq_true] at hfalse
    simp [confirmsCreation, finished, hhost, Exchange.granted, Subsystems.hostCall,
      Subsystems.removalCall, hfalse]
  | @versionless s answer undone hanswer =>
    have hhosting : answered (Subsystems.hosting s.spec) ⟨.getVersion, none⟩
        (fun answer => (answer.read? Engine.Version.codec).isSome) = false := by
      -- Letting a host connect is another method than telling the version.
      unfold Subsystems.hosting
      split <;> simp [Exchange.granted, Subsystems.hostCall]
    rw [confirmsCreation, finished, answered_append, answered_cons, hhosting]
    simp [Exchange.granted, Subsystems.removalCall, hanswer]

/-- In an operation with the given exchanges the engine confirms a creation under a name. -/
def Operation.creates (registry : Attach.Registry) (fresh : String) (inv : Inventory) {k : Kind}
    (op : Operation k) (t : List Exchange) (name : String) : Bool :=
  (op.draft? registry fresh).any fun draft =>
    draft.1.name == name && confirmsCreation registry inv draft.1 k draft.2 t

/-- In an operation with the given exchanges the engine confirms the deletion of a name. -/
def Operation.deletes (registry : Attach.Registry) (inv : Inventory) {k : Kind}
    (op : Operation k) (t : List Exchange) (name : String) : Bool :=
  match op with
  | .delete request =>
    request.name == name &&
      (inv.find? k name).any fun record => confirmsDeletion registry inv name k record t
  | _ => false

/-! ## What an operation does to a name -/

/-- What the engine can confirm about a name. -/
inductive Confirmation where
  | creation
  | deletion
deriving DecidableEq, Repr

section

variable {registry : Attach.Registry} {fresh : String} {inv : Inventory} {k : Kind}

/-- What the engine confirms about a name in an operation with the given exchanges. -/
def Operation.confirmation? (registry : Attach.Registry) (fresh : String) (inv : Inventory)
    (op : Operation k) (t : List Exchange) (name : String) : Option Confirmation :=
  if op.creates registry fresh inv t name then some .creation
  else if op.deletes registry inv t name then some .deletion
  else none

/-- The confirmation that a name owes its place in the inventory to, or the lack of one. -/
def Inventory.standing (inv : Inventory) (k : Kind) (name : String) : Confirmation :=
  if (inv.find? k name).isSome then .creation else .deletion

theorem Inventory.standing_of_some {name : String} {record : k.Record}
    (h : inv.find? k name = some record) : inv.standing k name = .creation := by
  rw [standing, h]
  rfl

theorem Inventory.standing_of_none {name : String} (h : inv.find? k name = none) :
    inv.standing k name = .deletion := by
  rw [standing, h]
  rfl

theorem Inventory.isSome_find?_iff {name : String} :
    (inv.find? k name).isSome = true ↔ inv.standing k name = .creation := by
  rw [standing]
  split <;> simp_all

theorem Inventory.standing_keep (inv : Inventory) (name : String) (record : k.Record)
    (other : String) : (inv.keep k name record).standing k other =
      if other = name then .creation else inv.standing k other := by
  split
  · rename_i h
    rw [h]
    exact standing_of_some (inv.find?_keep_self k name record)
  · rename_i h
    rw [standing, inv.find?_keep_of_ne h, standing]

theorem Inventory.standing_drop (inv : Inventory) (name other : String) :
    (inv.drop k name).standing k other =
      if other = name then .deletion else inv.standing k other := by
  split
  · rename_i h
    rw [h]
    exact standing_of_none (inv.find?_drop_self k name)
  · rename_i h
    rw [standing, inv.find?_drop_of_ne h, standing]

@[simp] theorem exchanges_nil : exchanges [] = [] := rfl

@[simp] theorem exchanges_asked (x : Exchange) (events : List Event) :
    exchanges (.asked x :: events) = x :: exchanges events := rfl

@[simp] theorem exchanges_changed (c : Change) (events : List Event) :
    exchanges (.changed c :: events) = exchanges events := rfl

@[simp] theorem exchanges_map_asked (t : List Exchange) : exchanges (t.map .asked) = t := by
  induction t with
  | nil => rfl
  | cons x t ih => rw [List.map_cons, exchanges_asked, ih]

theorem exchanges_append (l m : List Event) : exchanges (l ++ m) = exchanges l ++ exchanges m :=
  List.filterMap_append

/-- What an engine plays depends on the exchanges alone. -/
theorem Procedure.plays_exchanges {σ : Type} {engine : σ → Call → Answer × σ} {s s' : σ}
    {events : List Event} (h : Plays engine s events s') :
    Plays engine s ((exchanges events).map .asked) s' := by
  induction events generalizing s with
  | nil => exact h
  | cons e events ih =>
    cases e with
    | asked x => exact ⟨h.1, ih h.2⟩
    | changed c => exact ih h

/-- No name comes or goes by calls that leave the engine's objects alone. -/
theorem Operation.confirmation?_of_keepsObjects (op : Operation k) {t : List Exchange}
    (ht : KeepsObjects t) (name : String) :
    op.confirmation? registry fresh inv t name = none := by
  have hcreates : op.creates registry fresh inv t name = false := by
    rw [creates]
    cases op.draft? registry fresh with
    | none => rfl
    | some draft => simp [not_confirmsCreation_of_keepsObjects ht]
  have hdeletes : op.deletes registry inv t name = false := by
    cases op with
    | delete request =>
      rw [deletes]
      cases inv.find? k name with
      | none => simp
      | some record => simp [not_confirmsDeletion_of_keepsObjects ht]
    | create | get | list | update | stats => rfl
  rw [confirmation?, hcreates, hdeletes]
  rfl

/-- An operation that is to make a record deletes none. -/
theorem Operation.deletes_of_draft? {op : Operation k} {draft : Place × k.Record}
    (h : op.draft? registry fresh = some draft) (t : List Exchange) (name : String) :
    op.deletes registry inv t name = false := by
  cases op with
  | delete => cases h
  | create | get | list | update | stats => rfl

/-- A confirmation turns what was before, and without one it stays. -/
def Confirmation.Turns (c : Option Confirmation) (before after : Confirmation) : Prop :=
  after = c.getD before ∧ c ≠ some before

theorem Confirmation.turns_none (before : Confirmation) : Turns none before before :=
  ⟨rfl, by simp⟩

theorem Confirmation.turns_some {before after : Confirmation} (h : after ≠ before) :
    Turns (some after) before after :=
  ⟨rfl, by simpa using h⟩

/-- What the engine confirms when an operation has made a record. -/
theorem Operation.confirmation?_of_made {op : Operation k} {place : Place}
    {draft made : k.Record} {t : List Exchange}
    (hop : op.draft? registry fresh = some (place, draft))
    (ht : Made registry inv place k draft made t) (name : String) :
    op.confirmation? registry fresh inv t name =
      if name = place.name then some .creation else none := by
  rw [confirmation?, deletes_of_draft? hop, creates, hop, Option.any_some, ht.confirms]
  by_cases hname : name = place.name
  · simp [hname]
  · simp [hname, Ne.symm hname]

/-- What the engine confirms when an operation has failed to make a record. -/
theorem Operation.confirmation?_of_unmade {op : Operation k} {place : Place}
    {draft : k.Record} {t : List Exchange}
    (hop : op.draft? registry fresh = some (place, draft))
    (ht : Unmade registry inv place k draft t) (name : String) :
    op.confirmation? registry fresh inv t name = none := by
  rw [confirmation?, deletes_of_draft? hop, creates, hop, Option.any_some, ht.not_confirms]
  simp

/-- What the engine confirms when an operation has asked it to remove the object of a record. -/
theorem Operation.confirmation?_of_removal {request : DeleteRequest} {record : k.Record}
    {call : Call} {answer : Answer} {t : List Exchange}
    (hkept : inv.find? k request.name = some record)
    (hcall : removal registry inv request.name k record = some call) (ht : KeepsObjects t)
    (name : String) :
    (Operation.delete (k := k) request).confirmation? registry fresh inv (⟨call, answer⟩ :: t)
        name =
      if name = request.name ∧ answer.isTrue = true then some .deletion else none := by
  have hdeletes : (Operation.delete (k := k) request).deletes registry inv (⟨call, answer⟩ :: t)
      name = decide (name = request.name ∧ answer.isTrue = true) := by
    rw [deletes]
    by_cases hname : name = request.name
    · subst hname
      rw [hkept, Option.any_some, confirmsDeletion, hcall, Option.any_some, answered_cons,
        answered_eq_false_of_keepsObjects ht (method_of_removal hcall)]
      simp
    · simp [hname, Ne.symm hname]
  rw [confirmation?, hdeletes]
  simp [creates, draft?]

/-- Whether a name is kept changes exactly when the engine confirms the opposite. -/
theorem Turn.turns {op : Operation k} {events : List Event} {r : Except Fault (Reply k)}
    (h : Turn registry fresh inv op events r) (name : String) :
    Confirmation.Turns (op.confirmation? registry fresh inv (exchanges events) name)
      (inv.standing k name) ((inv.after events).standing k name) := by
  cases h with
  | idle ht =>
    rw [exchanges_map_asked, op.confirmation?_of_keepsObjects ht, inv.after_map_asked]
    exact Confirmation.turns_none _
  | paged ht hcursors =>
    rw [exchanges_append, exchanges_map_asked, exchanges_changed, exchanges_nil, List.append_nil,
      Operation.confirmation?_of_keepsObjects _ ht, Inventory.after_append, inv.after_map_asked]
    cases k <;> exact Confirmation.turns_none _
  | made hop hnew ht =>
    rw [exchanges_append, exchanges_map_asked, exchanges_changed, exchanges_nil, List.append_nil,
      Operation.confirmation?_of_made hop ht, Inventory.after_append, inv.after_map_asked]
    show Confirmation.Turns _ _ ((inv.keep k _ _).standing k name)
    rw [Inventory.standing_keep]
    split
    · rename_i hname
      rw [hname, Inventory.standing_of_none hnew]
      exact Confirmation.turns_some (by decide)
    · exact Confirmation.turns_none _
  | unmade hop hnew ht =>
    rw [exchanges_map_asked, Operation.confirmation?_of_unmade hop ht, inv.after_map_asked]
    exact Confirmation.turns_none _
  | revised hsupported hkept hrevise =>
    rw [exchanges_changed, exchanges_nil,
      Operation.confirmation?_of_keepsObjects _ keepsObjects_nil]
    show Confirmation.Turns _ _ ((inv.keep k _ _).standing k name)
    rw [Inventory.standing_keep]
    split
    · rename_i hname
      rw [hname, Inventory.standing_of_some hkept]
      exact Confirmation.turns_none _
    · exact Confirmation.turns_none _
  | @dropped request record call t hkept hcall ht =>
    rw [exchanges_asked, exchanges_changed, exchanges_map_asked, Exchange.granted,
      Operation.confirmation?_of_removal hkept hcall ht, Inventory.after_asked,
      Inventory.after_changed, Inventory.after_map_asked]
    show Confirmation.Turns _ _ ((inv.drop k _).standing k name)
    rw [Inventory.standing_drop]
    by_cases hname : name = request.name
    · rw [if_pos ⟨hname, rfl⟩, if_pos hname, hname, Inventory.standing_of_some hkept]
      exact Confirmation.turns_some (by decide)
    · rw [if_neg (fun h => hname h.1), if_neg hname]
      exact Confirmation.turns_none _
  | held hkept hcall hanswer =>
    rw [Ne, ← Answer.isTrue_iff] at hanswer
    rw [exchanges_asked, exchanges_nil,
      Operation.confirmation?_of_removal hkept hcall keepsObjects_nil,
      if_neg (fun h => hanswer h.2)]
    exact Confirmation.turns_none _

theorem Inventory.find?_after_hand (inv : Inventory) (cursors : Cursors) (k : Kind)
    (name : String) : (inv.after [.changed (.hand cursors)]).find? k name = inv.find? k name := by
  cases k <;> rfl

/-- What an operation with the given exchanges and result can do to what is kept under a name. -/
inductive Operation.Fate (registry : Attach.Registry) (fresh : String) (inv : Inventory)
    (op : Operation k) (t : List Exchange) (r : Except Fault (Reply k)) (name : String) :
    (before after : Option k.Record) → Prop
  | stays (kept : Option k.Record) : Fate registry fresh inv op t r name kept kept
  | comes {place : Place} {draft made : k.Record}
      (hop : op.draft? registry fresh = some (place, draft)) (hname : place.name = name)
      (ht : Made registry inv place k draft made t) (hresult : r = .ok (.record made)) :
      Fate registry fresh inv op t r name none made
  | revised {request : UpdateRequest k.Record} {kept revised : k.Record}
      (hop : op = .update request) (hname : Resource.name request.resource = name)
      (hrevise : Inventory.revise kept request = .ok revised) :
      Fate registry fresh inv op t r name kept revised
  | goes {request : DeleteRequest} {record : k.Record} {call : Call} (hop : op = .delete request)
      (hname : request.name = name) (hcall : removal registry inv name k record = some call)
      (ht : .granted call ∈ t) : Fate registry fresh inv op t r name record none

/-- An operation does one of these to every name. -/
theorem Turn.fate {op : Operation k} {events : List Event} {r : Except Fault (Reply k)}
    (h : Turn registry fresh inv op events r) (name : String) :
    op.Fate registry fresh inv (exchanges events) r name (inv.find? k name)
      ((inv.after events).find? k name) := by
  cases h with
  | idle | unmade =>
    rw [inv.after_map_asked]
    exact .stays _
  | held => exact .stays _
  | paged =>
    rw [Inventory.after_append, inv.after_map_asked, Inventory.find?_after_hand]
    exact .stays _
  | @made _ place draft made t hop hnew ht =>
    rw [Inventory.after_append, inv.after_map_asked]
    show op.Fate _ _ _ _ _ _ _ ((inv.keep k place.name made).find? k name)
    by_cases hname : name = place.name
    · rw [hname, hnew, Inventory.find?_keep_self]
      exact .comes hop rfl (by simpa [exchanges_append] using ht) rfl
    · rw [inv.find?_keep_of_ne hname]
      exact .stays _
  | @revised request kept revised hsupported hkept hrevise =>
    show Operation.Fate _ _ _ _ _ _ _ _ ((inv.keep k _ revised).find? k name)
    by_cases hname : name = Resource.name request.resource
    · rw [hname, hkept, Inventory.find?_keep_self]
      exact .revised rfl rfl hrevise
    · rw [inv.find?_keep_of_ne hname]
      exact .stays _
  | @dropped request kept call t hkept hcall ht =>
    rw [Inventory.after_asked, Inventory.after_changed, Inventory.after_map_asked]
    show Operation.Fate _ _ _ _ _ _ _ _ ((inv.drop k request.name).find? k name)
    by_cases hname : name = request.name
    · rw [hname, hkept, Inventory.find?_drop_self]
      exact .goes rfl rfl hcall List.mem_cons_self
    · rw [inv.find?_drop_of_ne hname]
      exact .stays _

/-- A record that comes has been made. -/
theorem Turn.made_of_comes {op : Operation k} {events : List Event} {r : Except Fault (Reply k)}
    (h : Turn registry fresh inv op events r) {name : String} {record : k.Record}
    (hbefore : inv.find? k name = none) (hafter : (inv.after events).find? k name = some record) :
    ∃ place draft, op.draft? registry fresh = some (place, draft) ∧ place.name = name ∧
      Made registry inv place k draft record (exchanges events) := by
  have hfate := h.fate name
  rw [hbefore, hafter] at hfate
  cases hfate with
  | comes hop hname ht => exact ⟨_, _, hop, hname, ht⟩

/-- A record goes when the engine has granted the call that removes its object. -/
theorem Turn.removed_of_goes {op : Operation k} {events : List Event}
    {r : Except Fault (Reply k)} (h : Turn registry fresh inv op events r) {name : String}
    {record : k.Record} (hbefore : inv.find? k name = some record)
    (hafter : (inv.after events).find? k name = none) :
    ∃ request call, op = .delete request ∧ request.name = name ∧
      removal registry inv name k record = some call ∧ .granted call ∈ exchanges events := by
  have hfate := h.fate name
  rw [hbefore, hafter] at hfate
  cases hfate with
  | goes hop hname hcall ht => exact ⟨_, _, hop, hname, hcall, ht⟩

end

/-! ## Runs -/

/-- What the engine confirmed about a name in a step. -/
def Entry.confirmation? (registry : Attach.Registry) (k : Kind) (name : String) (e : Entry) :
    Option Confirmation :=
  if e.step.kind = k then
    e.step.operation.confirmation? registry e.step.fresh e.before (exchanges e.events) name
  else none

/-- What the engine confirmed about a name along a run, in order. -/
def Run.confirmations (registry : Attach.Registry) (run : Run) (k : Kind) (name : String) :
    List Confirmation :=
  run.entries.filterMap (Entry.confirmation? registry k name)

/-- Every entry of a run is a turn of its operation. -/
theorem Run.turn_of_mem {σ : Type} {registry : Attach.Registry} {engine : σ → Call → Answer × σ}
    {steps : List Step} {inv : Inventory} {s : σ} {e : Entry}
    (h : e ∈ (Run.of registry engine steps inv s).entries) :
    Turn registry e.step.fresh e.before e.step.operation e.events e.result := by
  induction steps generalizing inv s with
  | nil => cases h
  | cons step steps ih =>
    rcases List.mem_cons.1 h with rfl | h
    · exact turn_of_goes (Procedure.goes_run engine _ s)
    · exact ih h

/-- A step turns the standing of a name by what the engine confirmed in it. -/
theorem Entry.turns {registry : Attach.Registry} {e : Entry}
    (h : Turn registry e.step.fresh e.before e.step.operation e.events e.result) (k : Kind)
    (name : String) :
    Confirmation.Turns (e.confirmation? registry k name) (e.before.standing k name)
      (e.after.standing k name) := by
  unfold confirmation?
  split
  · rename_i hkind
    subst hkind
    exact h.turns name
  · rename_i hkind
    have hstanding : e.after.standing k name = e.before.standing k name := by
      rw [Inventory.standing, Inventory.find?, Entry.after, h.table_of_ne (Ne.symm hkind)]
      rfl
    rw [hstanding]
    exact Confirmation.turns_none _

/-- Confirmations take turns along a run, beginning with the opposite of how a name stood, and the
last one tells how it stands. -/
theorem Run.confirmations_alternate {σ : Type} (registry : Attach.Registry)
    (engine : σ → Call → Answer × σ) (steps : List Step) (inv : Inventory) (s : σ) (k : Kind)
    (name : String) :
    let run := Run.of registry engine steps inv s
    let history := inv.standing k name :: run.confirmations registry k name
    history.IsChain (· ≠ ·) ∧ history.getLast? = some (run.inventory.standing k name) := by
  -- By induction on the steps: the history of the rest begins with the standing after the first.
  induction steps generalizing inv s with
  | nil => exact ⟨.singleton _, rfl⟩
  | cons step steps ih =>
    let course := step.take registry engine inv s
    let first : Entry := ⟨step, inv, course.events, course.result⟩
    have hfirst : first ∈ (Run.of registry engine (step :: steps) inv s).entries :=
      List.mem_cons_self
    obtain ⟨hafter, hne⟩ := Entry.turns (Run.turn_of_mem hfirst) k name
    obtain ⟨hchain, hlast⟩ := ih (inv.after course.events) course.engine
    -- A step that confirms nothing leaves the history alone; one that does extends it.
    have hcons : (Run.of registry engine (step :: steps) inv s).confirmations registry k name =
        (first.confirmation? registry k name).toList ++
          (Run.of registry engine steps (inv.after course.events) course.engine).confirmations
            registry k name := by
      rw [confirmations, show (Run.of registry engine (step :: steps) inv s).entries =
        first :: (Run.of registry engine steps (inv.after course.events) course.engine).entries
        from rfl, List.filterMap_cons]
      cases first.confirmation? registry k name <;> rfl
    simp only [hcons]
    change (inv.after course.events).standing k name = _ at hafter
    cases hc : first.confirmation? registry k name with
    | none =>
      rw [hc, Option.getD_none] at hafter
      rw [hafter] at hchain hlast
      exact ⟨hchain, hlast⟩
    | some c =>
      rw [hc, Option.getD_some] at hafter
      rw [hafter] at hchain hlast
      refine ⟨List.IsChain.cons_cons ?_ hchain, hlast⟩
      intro hbefore
      exact hne (by rw [hc, ← hbefore])

/-- What comes into the inventory along a run and goes out of it is confirmed by the engine. -/
structure Run.Accounted (registry : Attach.Registry) (run : Run) : Prop where
  /-- A name comes only in a step that is to make a record under it. The engine has affirmed the
  call for the record, which bears the number in the answer, and has finished it. -/
  comes : ∀ e ∈ run.entries, ∀ name record, e.before.find? e.step.kind name = none →
    e.after.find? e.step.kind name = some record →
      ∃ place draft call answer,
        e.step.operation.draft? registry e.step.fresh = some (place, draft) ∧
        place.name = name ∧
        creation registry e.before place e.step.kind draft = some call ∧
        ⟨call, answer⟩ ∈ exchanges e.events ∧ answer.affirms e.step.kind = true ∧
        BearsNumber e.step.kind record answer ∧
        finished e.step.kind draft (exchanges e.events) = true
  /-- A name goes only when it is to be deleted and the engine has granted the call that removes the
  object of its record. -/
  goes : ∀ e ∈ run.entries, ∀ name record, e.before.find? e.step.kind name = some record →
    e.after.find? e.step.kind name = none →
      ∃ request call, e.step.operation = .delete request ∧ request.name = name ∧
        removal registry e.before name e.step.kind record = some call ∧
        .granted call ∈ exchanges e.events
  /-- The names of the other kinds neither come nor go. -/
  others : ∀ e ∈ run.entries, ∀ k, k ≠ e.step.kind → e.after.table k = e.before.table k
  /-- Creations and deletions of a name take turns. -/
  alternate : ∀ k name, (run.confirmations registry k name).IsChain (· ≠ ·)
  /-- A creation is the first of them. -/
  begin : ∀ k name, (run.confirmations registry k name).head? ≠ some .deletion
  /-- A name is kept when a creation is the last of them. -/
  kept : ∀ k name, (run.inventory.find? k name).isSome = true ↔
    (run.confirmations registry k name).getLast? = some .creation

/-- Every run that begins with nothing kept is accounted for, whatever engine it is against. -/
theorem run_accounted {σ : Type} (registry : Attach.Registry) (engine : σ → Call → Answer × σ)
    (steps : List Step) (s : σ) :
    (Run.of registry engine steps .empty s).Accounted registry := by
  have hhistory (k : Kind) (name : String) :=
    Run.confirmations_alternate registry engine steps .empty s k name
  have hempty (k : Kind) (name : String) :
      Inventory.empty.standing k name = .deletion := by
    cases k <;> rfl
  refine ⟨?_, ?_, ?_, ?_, ?_, ?_⟩
  · intro e he name record hbefore hafter
    obtain ⟨place, draft, hdraft, hname, hmade⟩ := (Run.turn_of_mem he).made_of_comes hbefore hafter
    obtain ⟨call, answer, hcall, hmem, haffirms, hbears⟩ := hmade.affirmed
    exact ⟨place, draft, call, answer, hdraft, hname, hcall, hmem, haffirms, hbears, hmade.finished⟩
  · intro e he name record hbefore hafter
    exact (Run.turn_of_mem he).removed_of_goes hbefore hafter
  · intro e he k hk
    exact (Run.turn_of_mem he).table_of_ne hk
  · intro k name
    exact (hhistory k name).1.tail
  · intro k name hhead
    have hchain := (hhistory k name).1
    obtain ⟨rest, hrest⟩ := List.head?_eq_some_iff.1 hhead
    rw [hrest, hempty] at hchain
    exact (List.isChain_cons_cons.1 hchain).1 rfl
  · intro k name
    have hlast := (hhistory k name).2
    rw [List.getLast?_cons, Option.some.injEq, hempty] at hlast
    rw [Inventory.isSome_find?_iff, ← hlast]
    cases ((Run.of registry engine steps .empty s).confirmations registry k name).getLast? with
    | none => simp
    | some c => simp

end StorageControl
