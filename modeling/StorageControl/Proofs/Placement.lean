/-
# Records are kept under their names

Every record is kept under its own name. That name is composed of well-formed ids, and it holds the
name of the parent that a nested record refers to. No operation loses this: a record is made in its
place under a parent that is kept, and an update leaves both the name and the parent.
-/
import StorageControl.Proofs.Provenance
import StorageControl.Proofs.World

namespace StorageControl

open Engine (Answer Call)

/-! ## Names of records that are kept -/

/-- For a kind without parent the parent's id is not used. -/
theorem Name.compose_of_root {k : Kind} (hk : k.parent? = none) (p q i : String) :
    compose k p i = compose k q i := by
  simp only [compose, hk]

/-- A composed name is more than white space. -/
theorem Check.required_compose (field : String) (k : Kind) (p i : String) :
    required field (Name.compose k p i) = .ok () := by
  have hslash : Text.isBlank '/' = false := by decide
  have hblank : Text.isBlankText (Name.compose k p i) = false := by
    cases k <;> simp [Text.isBlankText, Name.compose, Kind.parent?, Name.authority, hslash]
  rw [required, hblank]
  rfl

/-- A name composed of well-formed ids passes the check for names. -/
theorem Check.nameOf_compose {k : Kind} {p i : String} (hi : Check.id i = .ok ())
    (hp : k.parent?.isSome → Check.id p = .ok ()) :
    Check.nameOf k (Name.compose k p i) = .ok () := by
  rw [Check.id_eq_ok_iff] at hi
  have hkind : Name.kind? (Name.compose k p i) = some k := by
    cases hk : k.parent? with
    | none =>
      rw [Name.compose_of_root hk p ""]
      exact Name.kind?_compose k (by simp [Text.Whole]) (Check.whole_of_isId hi) (by simp [hk])
        (Check.ne_empty_of_isId hi)
    | some owner =>
      have hp := Check.id_eq_ok_iff.1 (hp (by simp [hk]))
      exact Name.kind?_compose k (Check.whole_of_isId hp) (Check.whole_of_isId hi)
        (fun _ => Check.ne_empty_of_isId hp) (Check.ne_empty_of_isId hi)
  simp [Check.nameOf, Check.required_compose, hkind, bind, Except.bind]

/-- A kind that has nested kinds is not nested. -/
theorem Kind.parent?_of_parent? {k owner : Kind} (hk : k.parent? = some owner) :
    owner.parent? = none := by
  cases k <;> cases hk <;> rfl

/-- The parent that a record of a nested kind refers to. -/
def Kind.reference? : (k : Kind) → k.Record → Option String
  | .controller, c => some c.spec.subsystemNameRef
  | .nvmeNamespace, n => some n.spec.subsystemNameRef
  | .scsiLun, l => some l.controllerNameRef
  | .subsystem, _ | .virtioBlk, _ | .scsiController, _ => none

/-- A record is where its name and its parent put it. -/
structure Placed (k : Kind) (name : String) (record : k.Record) : Prop where
  /-- It is kept under its name. -/
  key : Resource.name record = name
  /-- The name is composed of well-formed ids. -/
  composed : ∃ p i, name = Name.compose k p i ∧ Check.id i = .ok () ∧
    (k.parent?.isSome → Check.id p = .ok ())
  /-- It refers to the parent in the name. -/
  parent : k.reference? record = Name.parent? k name

namespace Placed

variable {k : Kind} {name : String} {record : k.Record}

/-- The name of a placed record passes the check for names. -/
theorem nameOf (h : Placed k name record) : Check.nameOf k name = .ok () := by
  obtain ⟨p, i, rfl, hi, hp⟩ := h.composed
  exact Check.nameOf_compose hi hp

/-- A name of a kind without parent is composed of its id. -/
theorem eq_compose_of_root (h : Placed k name record) (hk : k.parent? = none) :
    ∃ i, name = Name.compose k "" i ∧ Check.isId i = true := by
  obtain ⟨p, i, rfl, hi, -⟩ := h.composed
  exact ⟨i, Name.compose_of_root hk p "" i, Check.id_eq_ok_iff.1 hi⟩

/-- A record of a nested kind refers to the parent whose id is in its name. -/
theorem exists_reference? (h : Placed k name record) {owner : Kind} (hk : k.parent? = some owner) :
    ∃ p i, name = Name.compose k p i ∧ Check.id p = .ok () ∧ Check.id i = .ok () ∧
      k.reference? record = some (Name.compose owner "" p) := by
  obtain ⟨p, i, rfl, hi, hp⟩ := h.composed
  have hp := hp (by simp [hk])
  refine ⟨p, i, rfl, hp, hi, ?_⟩
  have hp' := Check.id_eq_ok_iff.1 hp
  rw [h.parent, Name.parent?_compose hk (Check.whole_of_isId hp')
    (Check.whole_of_isId (Check.id_eq_ok_iff.1 hi)) (Check.ne_empty_of_isId hp')]

/-- The parent of a placed record can be asked for. -/
theorem parentOf (h : Placed k name record) :
    Place.parentOf k ((k.reference? record).getD "") "" =
      .ok ((k.reference? record).getD "") := by
  cases hk : k.parent? with
  | none =>
    have hnone : k.reference? record = none := by
      rw [h.parent]
      simp [Name.parent?, hk]
    simp [hnone, Place.parentOf, hk]
  | some owner =>
    obtain ⟨p, i, -, hp, -, hreference⟩ := h.exists_reference? hk
    have hname : Check.nameOf owner (Name.compose owner "" p) = .ok () :=
      Check.nameOf_compose hp (by simp [Kind.parent?_of_parent? hk])
    have hne : (Name.compose owner "" p).isEmpty = false := by
      rw [Bool.eq_false_iff, Ne, String.isEmpty_iff]
      intro hempty
      have hrequired := Check.required_compose "parent" owner "" p
      rw [hempty] at hrequired
      exact absurd hrequired (by decide)
    simp [hreference, Place.parentOf, hk, hne, hname, Check.required_compose, bind, Except.bind]

/-- A record that continues a placed one is placed. -/
theorem of_continues {kept : k.Record} (hrecord : Continues k record kept)
    (h : Placed k name kept) : Placed k name record where
  key := hrecord.name.trans h.key
  composed := h.composed
  parent := by
    rw [← h.parent]
    have hsame := hrecord.identity
    cases k with
    | controller | nvmeNamespace => exact congrArg some hsame.subsystemNameRef
    | scsiLun => exact congrArg some hsame.controllerNameRef
    | subsystem | virtioBlk | scsiController => rfl

end Placed

/-! ## Made records -/

section

variable {registry : Attach.Registry} {inv : Inventory} {k : Kind} {place : Place}
  {draft made : k.Record} {t : List Exchange}

/-- A made record of a nested kind refers to the parent of its place. -/
theorem Made.reference?_eq (h : Made registry inv place k draft made t) :
    k.reference? made = k.parent?.map fun _ => place.parent := by
  cases h <;> rfl

/-- A record that is made under a parent that is where it belongs is where it belongs itself. -/
theorem Made.placed (h : Made registry inv place k draft made t) (hinv : inv.All Placed)
    (hplace : place = Place.under k place.parent place.id)
    (hid : Check.isId place.id = true) : Placed k place.name made := by
  have hname : place.name = Name.compose k (Place.parentId k place.parent) place.id :=
    congrArg Place.name hplace
  have hown : Check.id place.id = .ok () := Check.id_eq_ok_iff.2 hid
  have hrest : (∃ p i, place.name = Name.compose k p i ∧ Check.id i = .ok () ∧
      (k.parent?.isSome → Check.id p = .ok ())) ∧
      Name.parent? k place.name = k.parent?.map fun _ => place.parent := by
    rw [hname]
    cases hk : k.parent? with
    | none => exact ⟨⟨_, _, rfl, hown, nofun⟩, by simp [Name.parent?, hk]⟩
    | some owner =>
      -- The parent is kept, so that its name is composed of a well-formed id.
      obtain ⟨parent, hparent⟩ := h.parent_kept hk
      obtain ⟨i, hi, hisId⟩ :=
        (hinv owner _ parent hparent).eq_compose_of_root (Kind.parent?_of_parent? hk)
      have hwhole := Check.whole_of_isId hisId
      have hparentId : Place.parentId k place.parent = i := by
        simp only [Place.parentId, hk]
        rw [hi, Name.idIn_compose_parent hk hwhole]
      rw [hparentId]
      refine ⟨⟨i, _, rfl, hown, fun _ => Check.id_eq_ok_iff.2 hisId⟩, ?_⟩
      rw [Name.parent?_compose hk hwhole (Check.whole_of_isId hid)
        (Check.ne_empty_of_isId hisId), hi]
      rfl
  exact ⟨h.name_eq, hrest.1, h.reference?_eq.trans hrest.2.symm⟩

end

/-! ## Runs -/

/-- A turn leaves every record where its name and its parent put it. -/
theorem Turn.placed {registry : Attach.Registry} {inv : Inventory} {step : Step}
    {events : List Event} {r : Except Fault (Reply step.kind)}
    (h : Turn registry step.fresh inv step.operation events r) (hinv : inv.All Placed) :
    (inv.after events).All Placed := by
  refine h.all hinv ?_ Placed.of_continues
  intro place draft made hop hmade
  obtain ⟨hplace, hid, -⟩ := Operation.placed_of_draft? hop
  exact hmade.placed hinv hplace hid

/-- Along a run every record stays where its name and its parent put it. -/
theorem Run.placed {σ : Type} {registry : Attach.Registry} {engine : σ → Call → Answer × σ}
    {inv : Inventory} (steps : List Step) (s : σ) (hinv : inv.All Placed) :
    (Run.of registry engine steps inv s).inventory.All Placed :=
  Run.invariant (P := fun inv => inv.All Placed) (fun hinv hturn => hturn.placed hinv) steps s hinv

/-- After any actions every record is where its name and its parent put it. -/
theorem World.placed_after (registry : Attach.Registry) (actions : List World.Action) :
    (World.after registry actions).inventory.All Placed :=
  World.inventory_invariant (P := fun inv => inv.All Placed) (Inventory.all_empty Placed)
    (fun hinv hturn => hturn.placed hinv) actions

/-- After every run that begins with nothing kept, whatever engine it is against, each record is
kept under its name, which is composed of well-formed ids, and a nested record refers to the parent
in its name. -/
theorem run_all_placed {σ : Type} (registry : Attach.Registry)
    (engine : σ → Call → Answer × σ) (steps : List Step) (s : σ) :
    (Run.of registry engine steps .empty s).inventory.All Placed :=
  Run.placed steps s (Inventory.all_empty Placed)

end StorageControl
