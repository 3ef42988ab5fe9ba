/-
# How scripts and procedures go

A script can go in as many ways as the engine can answer. The relation `Goes` holds of a script,
the exchanges with the engine in one such way, and what comes of it; for procedures it holds of all
that happens. A script put together from parts goes as its parts go, one after the other, and
whatever a procedure is run against, it goes in one of its ways.
-/
import StorageControl.Inventory.Procedure

namespace StorageControl

open Engine (Call Answer Method Script)

/-! ## What an answer says -/

namespace Engine.Answer

variable {α : Type}

/-- What an answer says when it is read as a value of a type. -/
def read? (c : Codec α) : Answer → Option α
  | .ok v => c.decode v
  | .error _ => none

theorem decode_eq_ok_iff (method : String) {c : Codec α} {answer : Answer} {a : α} :
    answer.decode method c = .ok a ↔ answer.read? c = some a := by
  cases answer with
  | error e => simp [decode, read?]
  | ok v => cases h : c.decode v <;> simp [decode, read?, h]

theorem read?_eq_none_of_decode {method : String} {c : Codec α} {answer : Answer} {e : Fault}
    (h : answer.decode method c = .error e) : answer.read? c = none := by
  cases hread : answer.read? c with
  | none => rfl
  | some a =>
    rw [(decode_eq_ok_iff method).2 hread] at h
    cases h

/-- A truth value is read exactly from its written form. -/
theorem read?_flag_eq_some_iff {answer : Answer} {b : Bool} :
    answer.read? .flag = some b ↔ answer = .ok (.bool b) := by
  cases answer with
  | error e => simp [read?]
  | ok v => cases v <;> simp [read?, Codec.flag]

end Engine.Answer

namespace Engine.Script

open Answer

variable {α β γ σ : Type}

/-! ## The ways of a script -/

/-- The script can go with the given exchanges, and then the given result comes of it. -/
inductive Goes : Script α → List Exchange → Except Fault α → Prop
  | done (a : α) : Goes (.done a) [] (.ok a)
  | failed (e : Fault) : Goes (.failed e) [] (.error e)
  | call {request : Call} {resume : Answer → Script α} {answer : Answer} {t : List Exchange}
      {r : Except Fault α} (h : Goes (resume answer) t r) :
      Goes (.call request resume) (⟨request, answer⟩ :: t) r

@[simp] theorem goes_done_iff {a : α} {t : List Exchange} {r : Except Fault α} :
    (Script.done a).Goes t r ↔ t = [] ∧ r = .ok a := by
  constructor
  · rintro ⟨⟩
    exact ⟨rfl, rfl⟩
  · rintro ⟨rfl, rfl⟩
    exact .done a

@[simp] theorem goes_failed_iff {e : Fault} {t : List Exchange} {r : Except Fault α} :
    (Script.failed e : Script α).Goes t r ↔ t = [] ∧ r = .error e := by
  constructor
  · rintro ⟨⟩
    exact ⟨rfl, rfl⟩
  · rintro ⟨rfl, rfl⟩
    exact .failed e

/-- A script that calls first goes on with any answer. -/
theorem goes_call_iff {request : Call} {resume : Answer → Script α} {t : List Exchange}
    {r : Except Fault α} :
    (Script.call request resume).Goes t r ↔
      ∃ answer rest, t = ⟨request, answer⟩ :: rest ∧ (resume answer).Goes rest r := by
  constructor
  · intro h
    cases h with
    | call h => exact ⟨_, _, rfl, h⟩
  · rintro ⟨answer, rest, rfl, h⟩
    exact .call h

/-- Two scripts in a row: the first one fails, or the second one goes on with its result. -/
theorem goes_bind_iff {x : Script α} {f : α → Script β} {t : List Exchange}
    {r : Except Fault β} :
    (x.bind f).Goes t r ↔
      (∃ e, x.Goes t (.error e) ∧ r = .error e) ∨
        ∃ a t₁ t₂, x.Goes t₁ (.ok a) ∧ (f a).Goes t₂ r ∧ t = t₁ ++ t₂ := by
  induction x generalizing t with
  | done a =>
    constructor
    · intro h
      exact .inr ⟨a, [], t, .done a, h, rfl⟩
    · rintro (⟨e, ⟨⟩, -⟩ | ⟨_, _, t₂, ⟨⟩, h, rfl⟩)
      exact h
  | failed e =>
    constructor
    · rintro ⟨⟩
      exact .inl ⟨e, .failed e, rfl⟩
    · rintro (⟨_, ⟨⟩, rfl⟩ | ⟨_, _, _, ⟨⟩, -, -⟩)
      exact .failed e
  | call request resume ih =>
    simp only [bind, goes_call_iff, ih]
    constructor
    · rintro ⟨answer, rest, rfl, ⟨e, h, rfl⟩ | ⟨a, t₁, t₂, h₁, h₂, rfl⟩⟩
      · exact .inl ⟨e, ⟨answer, rest, rfl, h⟩, rfl⟩
      · exact .inr ⟨a, _, t₂, ⟨answer, t₁, rfl, h₁⟩, h₂, rfl⟩
    · rintro (⟨e, ⟨answer, rest, rfl, h⟩, rfl⟩ | ⟨a, t₁, t₂, ⟨answer, rest, rfl, h₁⟩, h₂, rfl⟩)
      · exact ⟨answer, rest, rfl, .inl ⟨e, h, rfl⟩⟩
      · exact ⟨answer, rest ++ t₂, rfl, .inr ⟨a, rest, t₂, h₁, h₂, rfl⟩⟩

/-- A script that is attempted goes as before and does not fail. -/
theorem goes_attempt_iff {x : Script α} {t : List Exchange} {r : Except Fault (Except Fault α)} :
    x.attempt.Goes t r ↔ ∃ result, x.Goes t result ∧ r = .ok result := by
  induction x generalizing t with
  | done a =>
    constructor
    · rintro ⟨⟩
      exact ⟨.ok a, .done a, rfl⟩
    · rintro ⟨_, ⟨⟩, rfl⟩
      exact .done _
  | failed e =>
    constructor
    · rintro ⟨⟩
      exact ⟨.error e, .failed e, rfl⟩
    · rintro ⟨_, ⟨⟩, rfl⟩
      exact .done _
  | call request resume ih =>
    simp only [attempt, goes_call_iff, ih]
    constructor
    · rintro ⟨answer, rest, rfl, result, h, rfl⟩
      exact ⟨result, ⟨answer, rest, rfl, h⟩, rfl⟩
    · rintro ⟨result, ⟨answer, rest, rfl, h⟩, rfl⟩
      exact ⟨answer, rest, rfl, result, h, rfl⟩

/-- After a script that is attempted the rest goes on with the result. -/
theorem goes_attempt_bind_iff {x : Script α} {f : Except Fault α → Script β} {t : List Exchange}
    {r : Except Fault β} :
    (x.attempt.bind f).Goes t r ↔
      ∃ result t₁ t₂, x.Goes t₁ result ∧ (f result).Goes t₂ r ∧ t = t₁ ++ t₂ := by
  simp only [goes_bind_iff, goes_attempt_iff]
  constructor
  · rintro (⟨e, ⟨_, -, hr⟩, -⟩ | ⟨result, t₁, t₂, ⟨_, h₁, ⟨⟩⟩, h₂, rfl⟩)
    · cases hr
    · exact ⟨result, t₁, t₂, h₁, h₂, rfl⟩
  · rintro ⟨result, t₁, t₂, h₁, h₂, rfl⟩
    exact .inr ⟨result, t₁, t₂, ⟨result, h₁, rfl⟩, h₂, rfl⟩

/-! ## First steps -/

/-- After a check the script is over if the check has failed. -/
theorem goes_check_bind_iff {e : Except Rejection α} {f : α → Script β} {t : List Exchange}
    {r : Except Fault β} :
    ((check e).bind f).Goes t r ↔
      (∃ why, e = .error why ∧ t = [] ∧ r = .error (.rejected why)) ∨
        ∃ a, e = .ok a ∧ (f a).Goes t r := by
  cases e <;> simp [check]

/-- After a look at something the script is over if it is missing. -/
theorem goes_demand_bind_iff {fault : Fault} {o : Option α} {f : α → Script β}
    {t : List Exchange} {r : Except Fault β} :
    ((demand fault o).bind f).Goes t r ↔
      (o = none ∧ t = [] ∧ r = .error fault) ∨ ∃ a, o = some a ∧ (f a).Goes t r := by
  cases o <;> simp [demand]

/-- A call ends with its answer, read as a value of the expected type. -/
theorem goes_invoke_iff {m : Method} {params : Json} {c : Codec α} {t : List Exchange}
    {r : Except Fault α} :
    (invoke m params c).Goes t r ↔
      ∃ answer, t = [⟨⟨m, some params⟩, answer⟩] ∧ r = answer.decode m.name c := by
  simp only [invoke, goes_call_iff, receive]
  constructor
  · rintro ⟨answer, rest, rfl, h⟩
    refine ⟨answer, ?_⟩
    cases hd : answer.decode m.name c <;> simp_all [settle]
  · rintro ⟨answer, rfl, rfl⟩
    refine ⟨answer, [], rfl, ?_⟩
    cases answer.decode m.name c <;> simp [settle]

/-- A call without parameters ends with its answer, read as a value of the expected type. -/
theorem goes_invokeBare_iff {m : Method} {c : Codec α} {t : List Exchange}
    {r : Except Fault α} :
    (invokeBare m c).Goes t r ↔
      ∃ answer, t = [⟨⟨m, none⟩, answer⟩] ∧ r = answer.decode m.name c := by
  simp only [invokeBare, goes_call_iff, receive]
  constructor
  · rintro ⟨answer, rest, rfl, h⟩
    refine ⟨answer, ?_⟩
    cases hd : answer.decode m.name c <;> simp_all [settle]
  · rintro ⟨answer, rfl, rfl⟩
    refine ⟨answer, [], rfl, ?_⟩
    cases answer.decode m.name c <;> simp [settle]

/-! ## Granted calls -/

/-- Why a call that is answered in some way does not pass. -/
def denial (m : Method) (c : Codec α) (what : Refusal) (answer : Answer) : Fault :=
  match answer.decode m.name c with
  | .error e => e
  | .ok _ => .refused what

/-- A call whose answer has to pass a test: it does and the script goes on with it, or it does not
and the script is over. -/
theorem goes_confirm_bind_iff {m : Method} {params : Json} {c : Codec α} {p : α → Bool}
    {what : Refusal} {f : α → Script β} {t : List Exchange} {r : Except Fault β} :
    ((invoke m params c).bind fun a => (confirm (p a) what).bind fun _ => f a).Goes t r ↔
      ∃ answer rest, t = ⟨⟨m, some params⟩, answer⟩ :: rest ∧
        ((∃ a, answer.read? c = some a ∧ p a = true ∧ (f a).Goes rest r) ∨
          ((answer.read? c).any p = false ∧ rest = [] ∧
            r = .error (denial m c what answer))) := by
  simp only [goes_bind_iff (x := invoke m params c), goes_invoke_iff]
  constructor
  · rintro (⟨e, ⟨answer, rfl, he⟩, rfl⟩ | ⟨a, _, t₂, ⟨answer, rfl, ha⟩, h, rfl⟩)
    · refine ⟨answer, [], rfl, .inr ⟨?_, rfl, by rw [denial, ← he]⟩⟩
      cases hread : answer.read? c with
      | none => rfl
      | some a => rw [(decode_eq_ok_iff m.name).2 hread] at he; cases he
    · have hread := (decode_eq_ok_iff m.name).1 ha.symm
      refine ⟨answer, t₂, rfl, ?_⟩
      cases hp : p a with
      | true => exact .inl ⟨a, hread, hp, by simpa [confirm, hp] using h⟩
      | false =>
        simp only [confirm, hp] at h
        obtain ⟨rfl, rfl⟩ := goes_failed_iff.1 h
        exact .inr ⟨by simp [hread, hp], rfl, by rw [denial, ← ha]⟩
  · rintro ⟨answer, rest, rfl, ⟨a, hread, hp, h⟩ | ⟨hp, rfl, rfl⟩⟩
    · refine .inr ⟨a, _, rest, ⟨answer, rfl, ((decode_eq_ok_iff m.name).2 hread).symm⟩, ?_, rfl⟩
      simpa [confirm, hp] using h
    · cases hd : answer.decode m.name c with
      | error e => exact .inl ⟨e, ⟨answer, rfl, hd.symm⟩, by rw [denial, hd]⟩
      | ok a =>
        rw [(decode_eq_ok_iff m.name).1 hd, Option.any_some] at hp
        refine .inr ⟨a, _, [], ⟨answer, rfl, hd.symm⟩, ?_, rfl⟩
        simp [confirm, hp, denial, hd]

/-- A call that the engine has to grant: it answers true and the script goes on, or it does not and
the script is over. -/
theorem goes_grant_bind_iff {m : Method} {params : Json} {what : Refusal} {f : Unit → Script β}
    {t : List Exchange} {r : Except Fault β} :
    ((invoke m params .flag).bind fun granted => (confirm granted what).bind f).Goes t r ↔
      ∃ answer rest, t = ⟨⟨m, some params⟩, answer⟩ :: rest ∧
        ((answer = .ok (.bool true) ∧ (f ()).Goes rest r) ∨
          (answer ≠ .ok (.bool true) ∧ rest = [] ∧
            r = .error (denial m .flag what answer))) := by
  rw [show ((invoke m params .flag).bind fun granted => (confirm granted what).bind f)
    = (invoke m params .flag).bind fun granted => (confirm (id granted) what).bind fun _ => f ()
    from rfl, goes_confirm_bind_iff]
  have htrue (answer : Answer) :
      (answer.read? .flag).any id = false ↔ answer ≠ .ok (.bool true) := by
    rw [Ne, ← read?_flag_eq_some_iff]
    cases answer.read? .flag with
    | none => simp
    | some b => cases b <;> simp
  constructor
  · rintro ⟨answer, rest, rfl, ⟨a, hread, rfl, h⟩ | ⟨hp, rfl, rfl⟩⟩
    · exact ⟨answer, rest, rfl, .inl ⟨read?_flag_eq_some_iff.1 hread, h⟩⟩
    · exact ⟨answer, [], rfl, .inr ⟨(htrue answer).1 hp, rfl, rfl⟩⟩
  · rintro ⟨answer, rest, rfl, ⟨rfl, h⟩ | ⟨ha, rfl, rfl⟩⟩
    · exact ⟨_, rest, rfl, .inl ⟨true, rfl, rfl, h⟩⟩
    · exact ⟨answer, [], rfl, .inr ⟨(htrue answer).2 ha, rfl, rfl⟩⟩

/-- A script that ends with a granted call. -/
theorem goes_grant_iff {m : Method} {params : Json} {what : Refusal} {t : List Exchange}
    {r : Except Fault Unit} :
    ((invoke m params .flag).bind fun granted => confirm granted what).Goes t r ↔
      ∃ answer, t = [⟨⟨m, some params⟩, answer⟩] ∧
        ((answer = .ok (.bool true) ∧ r = .ok ()) ∨
          (answer ≠ .ok (.bool true) ∧ r = .error (denial m .flag what answer))) := by
  rw [show ((invoke m params .flag).bind fun granted => confirm granted what)
    = (invoke m params .flag).bind fun granted => (confirm granted what).bind .done
    by simp only [bind_done], goes_grant_bind_iff]
  constructor
  · rintro ⟨answer, rest, rfl, ⟨ha, hr⟩ | ⟨ha, rfl, hr⟩⟩
    · obtain ⟨rfl, rfl⟩ := goes_done_iff.1 hr
      exact ⟨answer, rfl, .inl ⟨ha, rfl⟩⟩
    · exact ⟨answer, rfl, .inr ⟨ha, hr⟩⟩
  · rintro ⟨answer, rfl, ⟨ha, rfl⟩ | ⟨ha, hr⟩⟩
    · exact ⟨answer, [], rfl, .inl ⟨ha, .done _⟩⟩
    · exact ⟨answer, [], rfl, .inr ⟨ha, rfl, hr⟩⟩

/-! ## Scripts that only make certain calls -/

/-- Whatever the engine answers, every call that the script makes is of the given sort. -/
def Asks (P : Call → Prop) (x : Script α) : Prop :=
  ∀ t r, x.Goes t r → ∀ e ∈ t, P e.request

namespace Asks

variable {P : Call → Prop}

theorem done (a : α) : Asks P (.done a) := by
  intro t r h
  obtain ⟨rfl, -⟩ := goes_done_iff.1 h
  simp

theorem failed (e : Fault) : Asks P (.failed e : Script α) := by
  intro t r h
  obtain ⟨rfl, -⟩ := goes_failed_iff.1 h
  simp

theorem check (e : Except Rejection α) : Asks P (Script.check e) := by
  cases e
  · exact failed _
  · exact done _

theorem demand (fault : Fault) (o : Option α) : Asks P (Script.demand fault o) := by
  cases o
  · exact failed _
  · exact done _

theorem invoke {m : Method} {params : Json} (c : Codec α) (h : P ⟨m, some params⟩) :
    Asks P (Script.invoke m params c) := by
  intro t r hg
  obtain ⟨answer, rfl, -⟩ := goes_invoke_iff.1 hg
  simpa using h

theorem invokeBare {m : Method} (c : Codec α) (h : P ⟨m, none⟩) :
    Asks P (Script.invokeBare m c) := by
  intro t r hg
  obtain ⟨answer, rfl, -⟩ := goes_invokeBare_iff.1 hg
  simpa using h

theorem bind {x : Script α} {f : α → Script β} (hx : Asks P x) (hf : ∀ a, Asks P (f a)) :
    Asks P (x.bind f) := by
  intro t r h
  rcases goes_bind_iff.1 h with ⟨e, h, -⟩ | ⟨a, t₁, t₂, h₁, h₂, rfl⟩
  · exact hx _ _ h
  · intro e he
    rcases List.mem_append.1 he with he | he
    · exact hx _ _ h₁ e he
    · exact hf a _ _ h₂ e he

theorem confirm (granted : Bool) (what : Refusal) : Asks P (Script.confirm granted what) := by
  cases granted
  · exact failed _
  · exact done _

theorem attempt {x : Script α} (hx : Asks P x) : Asks P x.attempt := by
  intro t r h
  obtain ⟨result, hgo, -⟩ := goes_attempt_iff.1 h
  exact hx _ _ hgo

theorem mono {Q : Call → Prop} {x : Script α} (hx : Asks P x) (h : ∀ call, P call → Q call) :
    Asks Q x := by
  intro t r hgo e he
  exact h e.request (hx t r hgo e he)

end Asks

end Engine.Script

namespace Procedure

variable {α β σ : Type}

/-! ## The ways of a procedure -/

/-- The procedure can go with the given events, and then the given result comes of it. -/
inductive Goes : Procedure α → List Event → Except Fault α → Prop
  | done (a : α) : Goes (.done a) [] (.ok a)
  | failed (e : Fault) : Goes (.failed e) [] (.error e)
  | call {request : Call} {resume : Answer → Procedure α} {answer : Answer} {t : List Event}
      {r : Except Fault α} (h : Goes (resume answer) t r) :
      Goes (.call request resume) (.asked ⟨request, answer⟩ :: t) r
  | change (c : Change) {rest : Procedure α} {t : List Event} {r : Except Fault α}
      (h : Goes rest t r) : Goes (.change c rest) (.changed c :: t) r

/-- Whatever a procedure is run against, it goes in one of its ways. -/
theorem goes_run (engine : σ → Call → Answer × σ) (p : Procedure α) (s : σ) :
    p.Goes (p.run engine s).events (p.run engine s).result := by
  induction p generalizing s with
  | done a => exact .done a
  | failed e => exact .failed e
  | call request resume ih => exact .call (ih _ _)
  | change c rest ih => exact .change c (ih _)

@[simp] theorem goes_done_iff {a : α} {t : List Event} {r : Except Fault α} :
    (Procedure.done a).Goes t r ↔ t = [] ∧ r = .ok a := by
  constructor
  · rintro ⟨⟩
    exact ⟨rfl, rfl⟩
  · rintro ⟨rfl, rfl⟩
    exact .done a

@[simp] theorem goes_failed_iff {e : Fault} {t : List Event} {r : Except Fault α} :
    (Procedure.failed e : Procedure α).Goes t r ↔ t = [] ∧ r = .error e := by
  constructor
  · rintro ⟨⟩
    exact ⟨rfl, rfl⟩
  · rintro ⟨rfl, rfl⟩
    exact .failed e

/-- A change is made in one way. -/
theorem goes_make_bind_iff {c : Change} {f : Unit → Procedure β} {t : List Event}
    {r : Except Fault β} :
    ((make c).bind f).Goes t r ↔ ∃ rest, t = .changed c :: rest ∧ (f ()).Goes rest r := by
  constructor
  · intro h
    cases h with
    | change _ h => exact ⟨_, rfl, h⟩
  · rintro ⟨rest, rfl, h⟩
    exact .change c h

/-- A script goes as a procedure the way it goes as a script. -/
theorem goes_ofScript_iff {x : Script α} {t : List Event} {r : Except Fault α} :
    (ofScript x).Goes t r ↔ ∃ u, x.Goes u r ∧ t = u.map .asked := by
  constructor
  · intro h
    induction x generalizing t with
    | done a =>
      obtain ⟨rfl, rfl⟩ := goes_done_iff.1 h
      exact ⟨[], .done a, rfl⟩
    | failed e =>
      obtain ⟨rfl, rfl⟩ := goes_failed_iff.1 h
      exact ⟨[], .failed e, rfl⟩
    | call request resume ih =>
      cases h with
      | call h =>
        obtain ⟨u, hu, rfl⟩ := ih _ h
        exact ⟨_ :: u, .call hu, rfl⟩
  · rintro ⟨u, h, rfl⟩
    induction h with
    | done a => exact .done a
    | failed e => exact .failed e
    | call _ ih => exact .call ih

/-- Two procedures in a row: the first one fails, or the second one goes on with its result. -/
theorem goes_bind_iff {x : Procedure α} {f : α → Procedure β} {t : List Event}
    {r : Except Fault β} :
    (x.bind f).Goes t r ↔
      (∃ e, x.Goes t (.error e) ∧ r = .error e) ∨
        ∃ a t₁ t₂, x.Goes t₁ (.ok a) ∧ (f a).Goes t₂ r ∧ t = t₁ ++ t₂ := by
  constructor
  · intro h
    induction x generalizing t with
    | done a => exact .inr ⟨a, [], t, .done a, h, rfl⟩
    | failed e =>
      obtain ⟨rfl, rfl⟩ := goes_failed_iff.1 h
      exact .inl ⟨e, .failed e, rfl⟩
    | call request resume ih =>
      cases h with
      | call h =>
        rcases ih _ h with ⟨e, he, rfl⟩ | ⟨a, t₁, t₂, h₁, h₂, rfl⟩
        · exact .inl ⟨e, .call he, rfl⟩
        · exact .inr ⟨a, _, t₂, .call h₁, h₂, rfl⟩
    | change c rest ih =>
      cases h with
      | change _ h =>
        rcases ih h with ⟨e, he, rfl⟩ | ⟨a, t₁, t₂, h₁, h₂, rfl⟩
        · exact .inl ⟨e, .change c he, rfl⟩
        · exact .inr ⟨a, _, t₂, .change c h₁, h₂, rfl⟩
  · rintro (⟨e, h, rfl⟩ | ⟨a, t₁, t₂, h₁, h₂, rfl⟩)
    · generalize hr : Except.error e = r at h
      induction h with
      | done a => cases hr
      | failed e' =>
        cases hr
        exact .failed _
      | call _ ih => exact .call (ih hr)
      | change c _ ih => exact .change c (ih hr)
    · generalize hr : Except.ok a = r at h₁
      induction h₁ with
      | done a =>
        cases hr
        exact h₂
      | failed e => cases hr
      | call _ ih => exact .call (ih hr)
      | change c _ ih => exact .change c (ih hr)

/-- A procedure that only turns its result into something else goes as before. -/
theorem goes_map_iff {x : Procedure α} {f : α → β} {t : List Event} {r : Except Fault β} :
    (x.bind fun a => .done (f a)).Goes t r ↔ ∃ result, x.Goes t result ∧ r = result.map f := by
  rw [goes_bind_iff]
  constructor
  · rintro (⟨e, h, rfl⟩ | ⟨a, t₁, t₂, h, hend, rfl⟩)
    · exact ⟨.error e, h, rfl⟩
    · obtain ⟨rfl, rfl⟩ := goes_done_iff.1 hend
      rw [List.append_nil]
      exact ⟨.ok a, h, rfl⟩
  · rintro ⟨result, h, rfl⟩
    cases result with
    | error e => exact .inl ⟨e, h, rfl⟩
    | ok a => exact .inr ⟨a, t, [], h, .done _, (List.append_nil t).symm⟩

/-- After a script the procedure is over if the script fails. -/
theorem goes_ofScript_bind_iff {x : Script α} {f : α → Procedure β} {t : List Event}
    {r : Except Fault β} :
    ((ofScript x).bind f).Goes t r ↔
      (∃ u e, x.Goes u (.error e) ∧ t = u.map .asked ∧ r = .error e) ∨
        ∃ a u rest, x.Goes u (.ok a) ∧ (f a).Goes rest r ∧ t = u.map .asked ++ rest := by
  rw [goes_bind_iff]
  constructor
  · rintro (⟨e, h, rfl⟩ | ⟨a, t₁, t₂, h₁, h₂, rfl⟩)
    · obtain ⟨u, hu, rfl⟩ := goes_ofScript_iff.1 h
      exact .inl ⟨u, e, hu, rfl, rfl⟩
    · obtain ⟨u, hu, rfl⟩ := goes_ofScript_iff.1 h₁
      exact .inr ⟨a, u, t₂, hu, h₂, rfl⟩
  · rintro (⟨u, e, hu, rfl, rfl⟩ | ⟨a, u, rest, hu, h, rfl⟩)
    · exact .inl ⟨e, goes_ofScript_iff.2 ⟨u, hu, rfl⟩, rfl⟩
    · exact .inr ⟨a, _, rest, goes_ofScript_iff.2 ⟨u, hu, rfl⟩, h, rfl⟩

/-- After a check the procedure is over if the check has failed. -/
theorem goes_check_bind_iff {e : Except Rejection α} {f : α → Procedure β} {t : List Event}
    {r : Except Fault β} :
    ((ofScript (Script.check e)).bind f).Goes t r ↔
      (∃ why, e = .error why ∧ t = [] ∧ r = .error (.rejected why)) ∨
        ∃ a, e = .ok a ∧ (f a).Goes t r := by
  cases e <;> simp [Script.check, ofScript]

/-- After a result that did not need the engine the procedure is over if it is a fault. -/
theorem goes_settle_bind_iff {e : Except Fault α} {f : α → Procedure β} {t : List Event}
    {r : Except Fault β} :
    ((ofScript (Script.settle e)).bind f).Goes t r ↔
      (∃ fault, e = .error fault ∧ t = [] ∧ r = .error fault) ∨
        ∃ a, e = .ok a ∧ (f a).Goes t r := by
  cases e <;> simp [Script.settle, ofScript]

/-! ## What an engine plays -/

/-- An engine answers the calls among some events the way they are answered there, and ends up in
a state. -/
def Plays (engine : σ → Call → Answer × σ) : σ → List Event → σ → Prop
  | s, [], s' => s' = s
  | s, .asked x :: rest, s' =>
    (engine s x.request).1 = x.answer ∧ Plays engine (engine s x.request).2 rest s'
  | s, .changed _ :: rest, s' => Plays engine s rest s'

/-- An engine plays an exchange when it answers the call in that way. -/
theorem plays_asked_iff {engine : σ → Call → Answer × σ} {s s' : σ} {x : Exchange}
    {rest : List Event} : Plays engine s (.asked x :: rest) s' ↔
      ∃ s₁, engine s x.request = (x.answer, s₁) ∧ Plays engine s₁ rest s' := by
  constructor
  · rintro ⟨hanswer, hrest⟩
    exact ⟨_, Prod.ext hanswer rfl, hrest⟩
  · rintro ⟨s₁, hengine, hrest⟩
    rw [Plays, hengine]
    exact ⟨rfl, hrest⟩

/-- An engine plays what happens when a procedure is run against it. -/
theorem plays_run (engine : σ → Call → Answer × σ) (p : Procedure α) (s : σ) :
    Plays engine s (p.run engine s).events (p.run engine s).engine := by
  induction p generalizing s with
  | done a => exact rfl
  | failed e => exact rfl
  | call request resume ih => exact ⟨rfl, ih _ _⟩
  | change c rest ih => exact ih _

/-- What an engine plays in two parts it plays one after the other. -/
theorem plays_append {engine : σ → Call → Answer × σ} {s s' : σ} {l m : List Event} :
    Plays engine s (l ++ m) s' ↔ ∃ s₁, Plays engine s l s₁ ∧ Plays engine s₁ m s' := by
  induction l generalizing s with
  | nil => simp [Plays]
  | cons e l ih =>
    cases e with
    | asked x => simp [Plays, ih, and_assoc]
    | changed c => simp [Plays, ih]

/-- What every call leaves between the states before and after it is left by all that an engine
plays. -/
theorem rel_of_plays {R : σ → σ → Prop} (hrefl : ∀ s, R s s)
    (htrans : ∀ {s₁ s₂ s₃}, R s₁ s₂ → R s₂ s₃ → R s₁ s₃) {engine : σ → Call → Answer × σ}
    {s s' : σ} {events : List Event}
    (hcall : ∀ x, .asked x ∈ events → ∀ s, R s (engine s x.request).2)
    (h : Plays engine s events s') : R s s' := by
  induction events generalizing s with
  | nil =>
    cases h
    exact hrefl _
  | cons e events ih =>
    have hrest : ∀ x, .asked x ∈ events → ∀ s, R s (engine s x.request).2 :=
      fun x hx => hcall x (List.mem_cons_of_mem e hx)
    cases e with
    | asked x => exact htrans (hcall x List.mem_cons_self s) (ih hrest h.2)
    | changed c => exact ih hrest h

end Procedure

end StorageControl
