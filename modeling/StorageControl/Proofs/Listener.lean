/-
# Listeners of kept controllers

Nothing keeps the address at which a controller listens. It is found anew whenever the engine is
asked about the controller, from the name of the controller, its transport and its endpoint. A
controller was attached when it was made, and no update changes any of the three. So a controller
that is kept can be attached to every subsystem, and the address that comes of it is always the one
that was sent to the engine when the controller was made.
-/
import StorageControl.Proofs.Attach
import StorageControl.Proofs.Identity

namespace StorageControl

open Engine (Answer Call Method ListenAddress)

variable {registry : Attach.Registry} {fresh : String} {inv : Inventory}

/-! ## Where a controller listens -/

/-- The controller can be attached to every subsystem, and it listens at the address then. -/
def Attach.Registry.ListensAt (registry : Attach.Registry) (c : Controller)
    (address : ListenAddress) : Prop :=
  ∀ s : Subsystem, ∃ listener,
    registry.listener c s = .ok listener ∧ listener.listenAddress = address

/-- A controller with the name, the transport and the endpoint of one that has been attached listens
where that one does. -/
theorem Attach.Registry.listensAt_of_listener {c c' : Controller} {s : Subsystem}
    {listener : Engine.Listener} (hname : c'.name = c.name)
    (htrtype : c'.spec.trtype = c.spec.trtype) (hendpoint : c'.spec.endpoint = c.spec.endpoint)
    (h : registry.listener c s = .ok listener) :
    registry.ListensAt c' listener.listenAddress := by
  intro s'
  have hsame : (registry.listener c' s').map (·.listenAddress) = .ok listener.listenAddress := by
    rw [address_congr (s := s) hname htrtype hendpoint, h]
    rfl
  cases hother : registry.listener c' s' with
  | error why =>
    rw [hother] at hsame
    cases hsame
  | ok listener' =>
    rw [hother] at hsame
    exact ⟨listener', rfl, Except.ok.inj hsame⟩

namespace Attach.Registry.ListensAt

variable {c : Controller} {address : ListenAddress}

/-- A record that continues a controller listens where the controller did. -/
theorem of_continues {kept : Controller} (hcontinues : Continues .controller c kept)
    (h : registry.ListensAt kept address) : registry.ListensAt c address := by
  intro s
  have hidentity : Controller.SameIdentity c kept := hcontinues.identity
  obtain ⟨listener, hlistener, rfl⟩ := h s
  exact listensAt_of_listener hcontinues.name hidentity.trtype hidentity.endpoint hlistener s

/-- Whatever subsystem a controller is attached to, the listener has the address. -/
theorem address_eq (h : registry.ListensAt c address) {s : Subsystem}
    {listener : Engine.Listener} (hlistener : registry.listener c s = .ok listener) :
    listener.listenAddress = address := by
  obtain ⟨listener', hlistener', rfl⟩ := h s
  rw [hlistener] at hlistener'
  exact congrArg (·.listenAddress) (Except.ok.inj hlistener')

/-- The row of a subsystem says of every such controller whether it is active. -/
theorem withRow_eq (h : registry.ListensAt c address) (s : Subsystem)
    (row : Engine.SubsystemRow) :
    Controllers.withRow registry s row c =
      .ok { c with status := some ⟨Controllers.isActive address row⟩ } := by
  obtain ⟨listener, hlistener, rfl⟩ := h s
  rw [Controllers.withRow, hlistener]
  rfl

end Attach.Registry.ListensAt

/-! ## Controllers in a listing -/

namespace Controllers

/-- A controller as the row of its subsystem shows it, if it can be attached. -/
def shown (registry : Attach.Registry) (s : Subsystem) (row : Engine.SubsystemRow)
    (c : Controller) : Controller :=
  (withRow registry s row c).toOption.getD c

variable {s : Subsystem} {row : Engine.SubsystemRow} {c : Controller}

theorem shown_eq {address : ListenAddress} (h : registry.ListensAt c address) :
    shown registry s row c = { c with status := some ⟨isActive address row⟩ } := by
  rw [shown, h.withRow_eq]
  rfl

@[simp] theorem name_shown : (shown registry s row c).name = c.name := by
  unfold shown withRow
  cases registry.listener c s <;> rfl

/-- The row of a subsystem shows all controllers that can be attached. -/
theorem mapM_withRow {cs : List Controller}
    (h : ∀ c ∈ cs, ∃ address, registry.ListensAt c address) :
    cs.mapM (withRow registry s row) = .ok (cs.map (shown registry s row)) := by
  induction cs with
  | nil => rfl
  | cons c cs ih =>
    obtain ⟨address, hc⟩ := h c List.mem_cons_self
    rw [List.mapM_cons, hc.withRow_eq, ih fun c' hc' => h c' (List.mem_cons_of_mem c hc'),
      List.map_cons, shown_eq hc]
    rfl

end Controllers

/-! ## The calls of a controller -/

namespace Controllers

/-- The call that adds a listener. -/
def adding (listener : Engine.Listener) : Call :=
  Method.addListener.on Engine.Listener.codec listener

/-- The call that removes a listener. -/
def removing (listener : Engine.Listener) : Call :=
  Method.removeListener.on Engine.Listener.codec listener

/-- A controller is made by one call, which adds its listener, and listens there from then on. -/
theorem listensAt_of_made {place : Place} {draft made : Controller} {t : List Exchange}
    (h : Made registry inv place .controller draft made t) :
    ∃ added, t = [.granted (adding added)] ∧ registry.ListensAt made added.listenAddress := by
  cases h with
  | controller hparent hlistener =>
    exact ⟨_, rfl, Attach.Registry.listensAt_of_listener rfl rfl rfl hlistener⟩

/-- Everything that is asked in a deletion of a kept controller is to remove the listener that
attaches it. -/
theorem request_of_delete {request : DeleteRequest} {c : Controller} {events : List Event}
    {r : Except Fault (Reply .controller)}
    (hkept : inv.find? .controller request.name = some c)
    (h : Way registry fresh inv (.delete request : Operation .controller) events r)
    {x : Exchange} (hx : x ∈ exchanges events) :
    ∃ s removed, registry.listener c s = .ok removed ∧ x.request = removing removed := by
  have hrelease {t : List Exchange} {result : Except Fault Unit}
      (hgo : (release registry inv request.name c).Goes t result) (ht : x ∈ t) :
      ∃ s removed, registry.listener c s = .ok removed ∧ x.request = removing removed := by
    have hgo' : ((Kind.controller.family registry).release inv request.name c).Goes t result := hgo
    rcases goes_release hgo' with ⟨-, rfl, -⟩ | ⟨call, answer, hcall, rfl, -⟩
    · cases ht
    · obtain ⟨s, -, hcall⟩ := Option.bind_eq_some_iff.1 hcall
      obtain ⟨removed, hremoved, ⟨⟩⟩ := Option.bind_eq_some_iff.1 hcall
      obtain rfl := List.mem_singleton.1 ht
      exact ⟨s, removed, Check.toOption_eq_some_iff.1 hremoved, rfl⟩
  cases h with
  | settled => cases hx
  | attempted hop => cases hop
  | dropped hfound hgo htidy =>
    obtain rfl := Option.some.inj (hkept.symm.trans hfound)
    obtain ⟨rfl, -⟩ := Engine.Script.goes_done_iff.1 htidy
    rw [exchanges_append, exchanges_map_asked, exchanges_changed, List.map_nil, exchanges_nil,
      List.append_nil] at hx
    exact hrelease hgo hx
  | held hfound hgo =>
    obtain rfl := Option.some.inj (hkept.symm.trans hfound)
    rw [exchanges_map_asked] at hx
    exact hrelease hgo hx

end Controllers

/-! ## Controllers that can be attached -/

/-- A controller can be attached to every subsystem, always at the same address. -/
def Attachable (registry : Attach.Registry) : (k : Kind) → String → k.Record → Prop
  | .controller, _, c => ∃ address, registry.ListensAt c address
  | .subsystem, _, _ | .nvmeNamespace, _, _ | .virtioBlk, _, _ | .scsiController, _, _
  | .scsiLun, _, _ => True

/-- A controller that is made can be attached. -/
theorem Made.attachable {k : Kind} {place : Place} {draft made : k.Record} {t : List Exchange}
    (h : Made registry inv place k draft made t) : Attachable registry k place.name made := by
  cases k with
  | controller =>
    obtain ⟨added, -, hlistens⟩ := Controllers.listensAt_of_made h
    exact ⟨_, hlistens⟩
  | _ => trivial

/-- A controller that continues one that can be attached can be attached. -/
theorem Attachable.of_continues {k : Kind} {name : String} {record kept : k.Record}
    (hcontinues : Continues k record kept) (h : Attachable registry k name kept) :
    Attachable registry k name record := by
  cases k with
  | controller =>
    obtain ⟨address, hlistens⟩ := h
    exact ⟨address, hlistens.of_continues hcontinues⟩
  | _ => trivial

/-- A turn leaves every controller one that can be attached. -/
theorem Turn.attachable {step : Step} {events : List Event} {r : Except Fault (Reply step.kind)}
    (h : Turn registry step.fresh inv step.operation events r)
    (hinv : inv.All (Attachable registry)) : (inv.after events).All (Attachable registry) :=
  h.all hinv (fun _ hmade => hmade.attachable) Attachable.of_continues

/-- Along a run every controller that is kept can be attached. -/
theorem Run.attachable {σ : Type} {engine : σ → Call → Answer × σ} (steps : List Step) (s : σ)
    (hinv : inv.All (Attachable registry)) :
    (Run.of registry engine steps inv s).inventory.All (Attachable registry) :=
  Run.invariant (P := fun inv => inv.All (Attachable registry))
    (fun hinv hturn => hturn.attachable hinv) steps s hinv

/-- After any actions every controller that is kept can be attached. -/
theorem World.attachable_after (registry : Attach.Registry) (actions : List World.Action) :
    (World.after registry actions).inventory.All (Attachable registry) :=
  World.inventory_invariant (P := fun inv => inv.All (Attachable registry))
    (Inventory.all_empty (Attachable registry)) (fun hinv hturn => hturn.attachable hinv) actions

/-! ## Runs -/

/-- The listener that was added for a controller along a run is the one that everything later is
about. -/
structure Run.Serves (registry : Attach.Registry) (run : Run) (name : String) (c : Controller)
    (added : Engine.Listener) : Prop where
  /-- It was added by the only call of the operation that made the controller, and the name has been
  kept since. -/
  made : ∃ earlier e later made, run.entries = earlier ++ e :: later ∧
    e.Makes registry .controller name made ∧
    exchanges e.events = [.granted (Controllers.adding added)] ∧
    ∀ f ∈ later, (f.after.find? .controller name).isSome
  /-- The controller can be attached to every subsystem, and listens at the address of the added
  listener. -/
  listens : registry.ListensAt c added.listenAddress
  /-- Whatever a deletion of the controller asks of any engine is to remove a listener at that
  address. -/
  removes : ∀ {σ : Type} (engine : σ → Call → Answer × σ) (s : σ) (fresh : String)
    (request : DeleteRequest), request.name = name →
      ∀ x ∈ exchanges ((run.inventory.perform registry fresh
        (.delete request : Operation .controller)).run engine s).events,
        ∃ removed, x.request = Controllers.removing removed ∧
          removed.listenAddress = added.listenAddress

/-- Every controller that is kept at the end of a run has a listener that was added for it. -/
def Run.KeepsListeners (registry : Attach.Registry) (run : Run) : Prop :=
  ∀ name c, run.inventory.find? .controller name = some c →
    ∃ added, run.Serves registry name c added

/-- Along every run that begins with nothing kept, whatever engine it is against, the listener of
each controller that is kept at the end is the one that was added when the controller was made. -/
theorem run_keepsListeners {σ : Type} (registry : Attach.Registry)
    (engine : σ → Call → Answer × σ) (steps : List Step) (s : σ) :
    (Run.of registry engine steps .empty s).KeepsListeners registry := by
  intro name c hkept
  have hback : (Run.of registry engine steps .empty s).GoesBack registry .controller name c := by
    rcases Run.origin steps s hkept with ⟨kept, hempty, -⟩ | hback
    · cases hempty
    · exact hback
  have hplaced := Run.placed steps s (Inventory.all_empty Placed) .controller name c hkept
  obtain ⟨earlier, e, later, made, hentries, hmakes, hstays, hsame⟩ := hback
  have hadded : ∃ added, exchanges e.events = [.granted (Controllers.adding added)] ∧
      registry.ListensAt made added.listenAddress ∧ made.name = name := by
    cases hmakes with
    | intro hop hname hmade hnew hfound =>
      obtain ⟨added, hexchanges, hlistens⟩ := Controllers.listensAt_of_made hmade
      exact ⟨added, hexchanges, hlistens, hmade.name_eq.trans hname⟩
  obtain ⟨added, hexchanges, hlistens, hname⟩ := hadded
  -- The controller has kept the name and the identity of the one that was made.
  have hcontinues : Continues .controller c made := ⟨hplaced.key.trans hname.symm, hsame⟩
  have hc : registry.ListensAt c added.listenAddress := hlistens.of_continues hcontinues
  refine ⟨added, ⟨earlier, e, later, made, hentries, hmakes, hexchanges, hstays⟩, hc, ?_⟩
  intro σ' engine' s' fresh request hrequest x hx
  subst hrequest
  obtain ⟨p, removed, hremoved, hcall⟩ :=
    Controllers.request_of_delete hkept (way_of_run registry fresh _ _ engine' s') hx
  exact ⟨removed, hcall, hc.address_eq hremoved⟩

end StorageControl
