/-
# Calls and failures are counted

Every call adds one to the count of its method, before there is a stream for it. A call that fails
adds one to the failures of its method as well, in the one way in which it has failed; whether its
result is of the type that is asked for has no part in that. So after any calls the counters are
what the calls and their answers add up to.
-/
import StorageControl.Proofs.Conversation

namespace StorageControl.Engine

/-! ## What is counted -/

/-- The answer is a failure of a kind: a fault of the connection, the answer of another call, or an
error of the engine. -/
def Answer.failsAs : FailureKind → Answer → Bool
  | .transport, .error (.unreachable _) => true
  | .protocol, .error (.mismatched _ _) => true
  | .engine, .error (.declined _ _) => true
  | _, _ => false

/-- A fault is counted under a kind exactly if it is a failure of the kind. -/
theorem Answer.failsAs_error_iff {kind : FailureKind} {fault : Fault} :
    Answer.failsAs kind (.error fault) = true ↔ FailureKind.ofFault? fault = some kind := by
  cases kind <;> cases fault <;> simp [Answer.failsAs, FailureKind.ofFault?]

/-- An answer that settles a call or breaks it is a result, or a failure in exactly one way. -/
theorem Answer.sum_of_decided {answer : Answer} (h : answer.Settled ∨ answer.Broken) :
    (if answer.isOk = true then 1 else 0) +
      ((if answer.failsAs .engine = true then 1 else 0) +
        (if answer.failsAs .protocol = true then 1 else 0) +
        (if answer.failsAs .transport = true then 1 else 0)) = 1 := by
  rcases h with hsettled | hbroken
  · cases hsettled <;> rfl
  · cases hbroken <;> rfl

/-- One more for a method leaves the counts of the others. -/
theorem Tally.count_bump (t : Tally) (method other : String) :
    (t.bump method).count other = t.count other + if other = method then 1 else 0 := by
  unfold bump count
  rw [Table.find?_insert]
  split
  · rename_i h
    rw [h, Option.getD_some]
  · rfl

namespace Counters

variable (c : Counters) (method : String) (kind : FailureKind)

/-- How often calls of a method have failed, in whichever way. -/
def allFailures : Nat :=
  (c.failures .engine).count method + (c.failures .protocol).count method +
    (c.failures .transport).count method

@[simp] theorem failures_countCall : (c.countCall method).failures kind = c.failures kind := by
  cases kind <;> rfl

@[simp] theorem calls_countFailure : (c.countFailure method kind).calls = c.calls := by
  cases kind <;> rfl

/-- A failure is counted under its kind only. -/
theorem failures_countFailure (other : FailureKind) :
    (c.countFailure method kind).failures other =
      if other = kind then (c.failures kind).bump method else c.failures other := by
  cases kind <;> cases other <;> rfl

end Counters

/-! ## One contact -/

namespace Client

/-- A note of an answer does not count the call again. -/
@[simp] theorem calls_note (c : Client) (method : String) (answer : Answer) :
    (c.note method answer).counters.calls = c.counters.calls := by
  unfold note
  repeat' split
  all_goals first | rfl | exact c.counters.calls_countFailure _ _

/-- A note of an answer counts the failure that it is, if it is one. -/
theorem count_failures_note (c : Client) (method other : String) (answer : Answer)
    (kind : FailureKind) :
    ((c.note method answer).counters.failures kind).count other =
      (c.counters.failures kind).count other +
        if other = method ∧ answer.failsAs kind = true then 1 else 0 := by
  cases answer with
  | ok v => cases kind <;> simp [note, Answer.failsAs]
  | error fault =>
    simp only [Answer.failsAs_error_iff]
    cases hkind : FailureKind.ofFault? fault with
    | none => simp [note, hkind]
    | some failed =>
      simp only [note, hkind, Counters.failures_countFailure, Option.some.injEq]
      by_cases h : kind = failed
      · subst h
        simp [Tally.count_bump]
      · simp [h, Ne.symm h]

@[simp] theorem counters_putBack (c : Client) (stream : Stream) (answer : Answer) :
    (c.putBack stream answer).counters = c.counters := by
  unfold putBack
  split <;> rfl

/-- A client counts a call, and then notes the answer to it. -/
theorem exists_after_contact (c : Client) (call : NamedCall) :
    ∃ d : Client, d.counters = c.counters.countCall call.method ∧
      (c.contact call).after = d.note call.method (c.contact call).answer := by
  rcases c.connect_cases with ⟨s, dialled, hconnect⟩ | ⟨failure, dialled, -, -, hconnect⟩
  · cases hexchange : exchange c.bound ⟨c.nextId, call.method, call.params⟩ s with
    | mk answer u =>
      have hcall := callNamed_of_ok hconnect hexchange
      simp only [contact, hcall]
      exact ⟨_, counters_putBack _ _ _, rfl⟩
  · have hcall := callNamed_of_error hconnect call.method call.params
    simp only [contact, hcall]
    exact ⟨_, rfl, rfl⟩

/-- A contact counts its call once. -/
theorem count_calls_contact (c : Client) (call : NamedCall) (method : String) :
    (c.contact call).after.counters.calls.count method =
      c.counters.calls.count method + if method = call.method then 1 else 0 := by
  obtain ⟨d, hcounters, hafter⟩ := c.exists_after_contact call
  rw [hafter, calls_note, hcounters]
  exact Tally.count_bump _ _ _

/-- A contact counts at most one failure, which is its answer. -/
theorem count_failures_contact (c : Client) (call : NamedCall) (method : String)
    (kind : FailureKind) :
    ((c.contact call).after.counters.failures kind).count method =
      (c.counters.failures kind).count method +
        if method = call.method ∧ (c.contact call).answer.failsAs kind = true then 1 else 0 := by
  obtain ⟨d, hcounters, hafter⟩ := c.exists_after_contact call
  rw [hafter, count_failures_note, hcounters, Counters.failures_countCall]

/-- A result is not counted as a failure, whatever type is asked for. -/
theorem failures_contact_of_ok {c : Client} {call : NamedCall} {v : Json}
    (h : (c.contact call).answer = .ok v) (kind : FailureKind) :
    (c.contact call).after.counters.failures kind = c.counters.failures kind := by
  obtain ⟨d, hcounters, hafter⟩ := c.exists_after_contact call
  rw [hafter, h]
  simp only [note, hcounters, Counters.failures_countCall]

end Client

/-- A result that is not of the type that is asked for is a result. -/
theorem Contact.Goes.ok_of_undecoded {x : Contact} (h : x.Goes) {α : Type} {result : Codec α}
    {method : String} (hout : x.outcome result = .error (.unreachable (.malformedResult method))) :
    ∃ v, x.answer = .ok v := by
  cases hanswer : x.answer with
  | ok v => exact ⟨v, rfl⟩
  | error fault =>
    rw [Contact.outcome, hanswer] at hout
    cases hout
    have hdecided := h.settled_or_broken
    rw [hanswer] at hdecided
    rcases hdecided with hsettled | hbroken
    · cases hsettled
    · cases hbroken with
      | unreachable hlink => exact hlink.elim

/-! ## After calls -/

namespace Client

/-- After calls the count of a method has grown by the number of calls of it. -/
theorem count_calls_after (c : Client) (calls : List NamedCall) (method : String) :
    (c.after calls).counters.calls.count method =
      c.counters.calls.count method + calls.countP (·.method = method) := by
  induction calls generalizing c with
  | nil => rfl
  | cons call calls ih =>
    rw [after, List.foldl_cons, ← after, ih, count_calls_contact, List.countP_cons]
    simp only [decide_eq_true_eq, eq_comm (a := method)]
    omega

/-- After calls the count of the failures of a method in one way has grown by the number of calls of
it that have failed so. -/
theorem count_failures_after (c : Client) (calls : List NamedCall) (method : String)
    (kind : FailureKind) :
    ((c.after calls).counters.failures kind).count method =
      (c.counters.failures kind).count method +
        (c.converse calls).countP fun x => x.call.method = method ∧ x.answer.failsAs kind := by
  induction calls generalizing c with
  | nil => rfl
  | cons call calls ih =>
    rw [after, List.foldl_cons, ← after, ih, count_failures_contact, converse, List.countP_cons]
    have hcall : (c.contact call).call = call := rfl
    simp only [decide_eq_true_eq, hcall, eq_comm (a := method)]
    omega

end Client

/-- Each of the calls of a method has succeeded, or it has failed in exactly one way. -/
theorem countP_method_eq {contacts : List Contact}
    (h : ∀ x ∈ contacts, x.answer.Settled ∨ x.answer.Broken) (method : String) :
    contacts.countP (fun x => x.call.method = method) =
      contacts.countP (fun x => x.call.method = method ∧ x.answer.isOk = true) +
        (contacts.countP (fun x => x.call.method = method ∧ x.answer.failsAs .engine) +
          contacts.countP (fun x => x.call.method = method ∧ x.answer.failsAs .protocol) +
          contacts.countP (fun x => x.call.method = method ∧ x.answer.failsAs .transport)) := by
  induction contacts with
  | nil => rfl
  | cons x contacts ih =>
    have hrest := ih fun y hy => h y (List.mem_cons_of_mem _ hy)
    simp only [List.countP_cons, decide_eq_true_eq]
    by_cases hmethod : x.call.method = method
    · have hone := Answer.sum_of_decided (h x List.mem_cons_self)
      simp only [hmethod, true_and, if_true]
      omega
    · simp only [hmethod, false_and, if_false]
      omega

/-! ## Accounts -/

/-- The counters after calls, and the contacts in which these were made, add up. -/
structure AddsUp (calls : List NamedCall) (contacts : List Contact) (counters : Counters) :
    Prop where
  /-- Every call is made. -/
  complete : contacts.map Contact.call = calls
  /-- The count of a method is the number of calls of it. -/
  called : ∀ method, counters.calls.count method = calls.countP (·.method = method)
  /-- The count of the failures of a method in one way is the number of calls of it that have ended
  in this way. -/
  failed : ∀ method kind, (counters.failures kind).count method =
    contacts.countP fun x => x.call.method = method ∧ x.answer.failsAs kind = true
  /-- The calls of a method that are not among the successful ones are its failures. -/
  balanced : ∀ method, counters.calls.count method =
    contacts.countP (fun x => x.call.method = method ∧ x.answer.isOk = true) +
      counters.allFailures method
  /-- There are no more failures of a method than calls. -/
  bounded : ∀ method, counters.allFailures method ≤ counters.calls.count method
  /-- In each contact the call is counted once, and its failure once if it is one. -/
  once : ∀ x ∈ contacts, ∀ method,
    x.after.counters.calls.count method =
      x.before.counters.calls.count method + (if method = x.call.method then 1 else 0) ∧
    ∀ kind, (x.after.counters.failures kind).count method =
      (x.before.counters.failures kind).count method +
        if method = x.call.method ∧ x.answer.failsAs kind = true then 1 else 0
  /-- A result that is not of the type that is asked for is not counted as a failure. -/
  undecoded : ∀ x ∈ contacts, ∀ (α : Type) (result : Codec α),
    x.outcome result = .error (.unreachable (.malformedResult x.call.method)) →
      ∀ kind, x.after.counters.failures kind = x.before.counters.failures kind

/-- The counters of a client add up after any calls, wherever the client begins, whatever is called,
and whatever the streams deliver. -/
theorem converse_addsUp (origin : Origin) (calls : List NamedCall) :
    AddsUp calls (origin.client.converse calls) (origin.client.after calls).counters := by
  have hzero : origin.client.counters = .zero := by cases origin <;> rfl
  have hcalls (method : String) : (origin.client.after calls).counters.calls.count method =
      calls.countP (·.method = method) := by
    rw [Client.count_calls_after, hzero]
    exact Nat.zero_add _
  have hfailures (method : String) (kind : FailureKind) :
      ((origin.client.after calls).counters.failures kind).count method =
        (origin.client.converse calls).countP
          fun x => x.call.method = method ∧ x.answer.failsAs kind = true := by
    have hnone : (Counters.zero.failures kind).count method = 0 := by cases kind <;> rfl
    rw [Client.count_failures_after, hzero, hnone, Nat.zero_add]
  have hbalanced (method : String) : (origin.client.after calls).counters.calls.count method =
      (origin.client.converse calls).countP
          (fun x => x.call.method = method ∧ x.answer.isOk = true) +
        (origin.client.after calls).counters.allFailures method := by
    have hdecided : ∀ x ∈ origin.client.converse calls, x.answer.Settled ∨ x.answer.Broken :=
      fun x hx => (Client.goes_of_mem hx).settled_or_broken
    rw [Counters.allFailures, hfailures, hfailures, hfailures, ← countP_method_eq hdecided, hcalls]
    conv_lhs => rw [← Client.map_call_converse origin.client calls]
    exact List.countP_map
  refine ⟨Client.map_call_converse _ calls, hcalls, hfailures, hbalanced, fun method => ?_, ?_, ?_⟩
  · rw [hbalanced]
    exact Nat.le_add_left _ _
  · exact Client.forall_mem_converse (I := fun _ => True) (fun _ _ _ => trivial)
      (fun c call _ method =>
        ⟨c.count_calls_contact call method, c.count_failures_contact call method⟩) trivial
  · refine Client.forall_mem_converse (I := fun _ => True) (fun _ _ _ => trivial) ?_ trivial
    intro c call _ α result hout kind
    obtain ⟨v, hanswer⟩ := (c.contact_goes call).1.ok_of_undecoded hout
    exact Client.failures_contact_of_ok hanswer kind

end StorageControl.Engine
