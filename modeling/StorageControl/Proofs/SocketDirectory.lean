/-
# Socket directories of controllers

A controller on an emulated PCI function listens in a directory under the configured base, which is
named after the own id of the controller. The id is one piece of a path, so that the directory tells
it. It does not tell the subsystem: two controllers listen in the same directory exactly when their
names end in the same id. Under one subsystem that makes them the same controller.
-/
import StorageControl.Inventory.World
import StorageControl.Proofs.Listener

namespace StorageControl

open Engine (Answer Call ListenAddress Simulation)
open Text (Whole)

/-! ## Paths -/

/-- The own id in a name is whole. -/
theorem Name.whole_ownId (name : String) : Whole '/' (ownId name) := by
  rw [ownId, List.getLastD_eq_getLast?]
  cases hlast : (Text.segments '/' name).getLast? with
  | none => simp [Whole]
  | some piece => exact Text.whole_of_mem_segments (List.mem_of_getLast? hlast)

namespace Attach

/-- The entries of a directory that are single pieces are told apart by their paths. -/
theorem joinPath_inj {dir a b : String} (ha : Whole '/' a) (hb : Whole '/' b) :
    joinPath dir a = joinPath dir b ↔ a = b := by
  have hrelative {entry : String} (h : Whole '/' entry) : entry.toList.head? ≠ some '/' :=
    fun hhead => h (List.mem_of_head? hhead)
  unfold joinPath
  rw [if_neg (hrelative ha), if_neg (hrelative hb)]
  split
  · exact String.append_right_inj dir
  · exact String.append_right_inj (dir ++ "/")

/-! ## One controller -/

/-- The address of the controller with a name on an emulated PCI function. -/
def Registry.socketAddress (registry : Registry) (name : String) : ListenAddress where
  trtype := emulatedTransport
  traddr := socketDirectory registry.config.vfioUser (Name.ownId name)

/-- Two names have the same directory exactly when they end in the same id. -/
theorem Registry.traddr_socketAddress_eq_iff {registry : Registry} {name other : String} :
    (registry.socketAddress name).traddr = (registry.socketAddress other).traddr ↔
      Name.ownId name = Name.ownId other :=
  joinPath_inj (Name.whole_ownId name) (Name.whole_ownId other)

theorem eq_of_emulatedAddress {base : Config.SocketBase} {c : Controller} {address : ListenAddress}
    (h : emulatedAddress base c = .ok address) :
    address =
      { trtype := emulatedTransport, traddr := socketDirectory base (Name.ownId c.name) } := by
  unfold emulatedAddress at h
  split at h
  · obtain ⟨_, -, h⟩ := Check.bind_eq_ok_iff.1 h
    exact (Check.unless_eq_ok_iff.1 h).2.symm
  · cases h
  · exact (Check.unless_eq_ok_iff.1 h).2.symm

/-- A controller on an emulated PCI function listens in the directory for its name. -/
theorem Registry.ListensAt.eq_socketAddress {registry : Registry} {c : Controller}
    {address : ListenAddress} (h : registry.ListensAt c address) (hpcie : c.spec.trtype = .pcie) :
    address = registry.socketAddress c.name := by
  obtain ⟨listener, hlistener, rfl⟩ := h {}
  obtain ⟨_, -, hlistener⟩ := Check.bind_eq_ok_iff.1 hlistener
  rw [hpcie] at hlistener
  obtain ⟨address, haddress, ⟨⟩⟩ := Check.bind_eq_ok_iff.1 hlistener
  exact eq_of_emulatedAddress haddress

end Attach

/-! ## Controllers under one subsystem -/

/-- Two records of a nested kind under one parent have the same own id only if they have the same
name. -/
theorem Placed.eq_of_siblings {k : Kind} {name other : String} {record sibling : k.Record}
    (h : Placed k name record) (h' : Placed k other sibling)
    (hparent : k.reference? record = k.reference? sibling)
    (hid : Name.ownId name = Name.ownId other) : name = other := by
  obtain ⟨p, i, rfl, hp, hi, hine, hpne⟩ :=
    Name.eq_compose_of_kind? (Check.kind?_of_nameOf h.nameOf)
  obtain ⟨q, j, rfl, hq, hj, hjne, hqne⟩ :=
    Name.eq_compose_of_kind? (Check.kind?_of_nameOf h'.nameOf)
  rw [Name.ownId_compose k hp hi, Name.ownId_compose k hq hj] at hid
  rw [h.parent, h'.parent] at hparent
  cases hk : k.parent? with
  | none => rw [hid, Name.compose_of_root hk p q]
  | some owner =>
    rw [Name.parent?_compose hk hp hi (hpne (by rw [hk]; rfl)),
      Name.parent?_compose hk hq hj (hqne (by rw [hk]; rfl))] at hparent
    have hsame := congrArg Name.ownId (Option.some.inj hparent)
    have hempty : Whole '/' "" := by simp [Whole]
    rw [Name.ownId_compose owner hempty hp, Name.ownId_compose owner hempty hq] at hsame
    rw [hid, hsame]

/-! ## Runs -/

/-- The controllers on emulated PCI functions that are kept at the end of a run listen in
directories by their ids. -/
structure Run.ListensById (registry : Attach.Registry) (run : Run) : Prop where
  /-- Each of them listens in the directory for its name. -/
  listens : ∀ name c, run.inventory.find? .controller name = some c → c.spec.trtype = .pcie →
    registry.ListensAt c (registry.socketAddress name)
  /-- Two of them listen in the same directory exactly when their names end in the same id. -/
  shared : ∀ name other c c', run.inventory.find? .controller name = some c →
    run.inventory.find? .controller other = some c' → c.spec.trtype = .pcie →
    c'.spec.trtype = .pcie → ∀ address address', registry.ListensAt c address →
    registry.ListensAt c' address' →
      (address.traddr = address'.traddr ↔ Name.ownId name = Name.ownId other)
  /-- Two of one subsystem never do. -/
  siblings : ∀ name other c c', run.inventory.find? .controller name = some c →
    run.inventory.find? .controller other = some c' →
    c.spec.subsystemNameRef = c'.spec.subsystemNameRef → name ≠ other →
      (registry.socketAddress name).traddr ≠ (registry.socketAddress other).traddr

/-- After every run that begins with nothing kept, whatever engine it is against and whatever the
base directory is, the socket directories of controllers are told apart by the ids of the
controllers, and by nothing else. -/
theorem run_listensById {σ : Type} (registry : Attach.Registry)
    (engine : σ → Call → Answer × σ) (steps : List Step) (s : σ) :
    (Run.of registry engine steps .empty s).ListensById registry := by
  have hattachable : (Run.of registry engine steps .empty s).inventory.All (Attachable registry) :=
    Run.attachable steps s (Inventory.all_empty _)
  have hplaced : (Run.of registry engine steps .empty s).inventory.All Placed :=
    Run.placed steps s (Inventory.all_empty Placed)
  constructor
  · intro name c hkept hpcie
    obtain ⟨address, hlistens⟩ := hattachable .controller name c hkept
    have hname : c.name = name := (hplaced .controller name c hkept).key
    have haddress := hlistens.eq_socketAddress hpcie
    rw [hname] at haddress
    rwa [← haddress]
  · intro name other c c' hkept hkept' hpcie hpcie' address address' hlistens hlistens'
    have hname : c.name = name := (hplaced .controller name c hkept).key
    have hother : c'.name = other := (hplaced .controller other c' hkept').key
    rw [hlistens.eq_socketAddress hpcie, hlistens'.eq_socketAddress hpcie', hname, hother]
    exact Attach.Registry.traddr_socketAddress_eq_iff
  · intro name other c c' hkept hkept' hparent hne
    rw [Ne, Attach.Registry.traddr_socketAddress_eq_iff]
    intro hid
    exact hne ((hplaced .controller name c hkept).eq_of_siblings
      (hplaced .controller other c' hkept') (congrArg some hparent) hid)

/-- Whichever subsystems they belong to, no two controllers on emulated PCI functions that are kept
at the end of a run listen in the same directory. -/
def Run.HasOwnDirectories (registry : Attach.Registry) (run : Run) : Prop :=
  ∀ name other c c', run.inventory.find? .controller name = some c →
    run.inventory.find? .controller other = some c' → c.spec.trtype = .pcie →
    c'.spec.trtype = .pcie → name ≠ other → ∀ address address', registry.ListensAt c address →
    registry.ListensAt c' address' → address.traddr ≠ address'.traddr

/-- Two subsystems are made, and under each of them a controller with the id a. -/
def namesakes : List Step :=
  let subsystem (nqn : String) : Subsystem := { spec := { nqn } }
  let controller : Controller := { spec := { trtype := .pcie } }
  [⟨.subsystem, .create "" (subsystem "nqn.2022-09.io.spdk:one") "s1", 0⟩,
   ⟨.subsystem, .create "" (subsystem "nqn.2022-09.io.spdk:two") "s2", 0⟩,
   ⟨.controller, .create "//storage.bridge.dev/subsystems/s1" controller "a", 0⟩,
   ⟨.controller, .create "//storage.bridge.dev/subsystems/s2" controller "a", 0⟩]

/-- Both controllers are kept, and they listen in the same directory. -/
theorem not_hasOwnDirectories_namesakes :
    ¬ (Run.of {} Simulation.answer namesakes .empty .start).HasOwnDirectories {} := by
  intro h
  let inv := (Run.of {} Simulation.answer namesakes .empty .start).inventory
  have hattachable : inv.All (Attachable {}) := Run.attachable namesakes _ (Inventory.all_empty _)
  have hkept : (inv.find? .controller "//storage.bridge.dev/subsystems/s1/controllers/a").map
        (fun c : Controller => (c.name, c.spec.trtype)) =
          some ("//storage.bridge.dev/subsystems/s1/controllers/a", .pcie) ∧
      (inv.find? .controller "//storage.bridge.dev/subsystems/s2/controllers/a").map
        (fun c : Controller => (c.name, c.spec.trtype)) =
          some ("//storage.bridge.dev/subsystems/s2/controllers/a", .pcie) := by
    decide +kernel
  obtain ⟨c, hc, hfields⟩ := Option.map_eq_some_iff.1 hkept.1
  obtain ⟨c', hc', hfields'⟩ := Option.map_eq_some_iff.1 hkept.2
  obtain ⟨hname, hpcie⟩ := Prod.mk.inj hfields
  obtain ⟨hname', hpcie'⟩ := Prod.mk.inj hfields'
  obtain ⟨address, hlistens⟩ := hattachable .controller _ c hc
  obtain ⟨address', hlistens'⟩ := hattachable .controller _ c' hc'
  refine h _ _ c c' hc hc' hpcie hpcie' (by decide) address address' hlistens hlistens' ?_
  rw [hlistens.eq_socketAddress hpcie, hlistens'.eq_socketAddress hpcie', hname, hname',
    Attach.Registry.traddr_socketAddress_eq_iff]
  decide +kernel

end StorageControl
