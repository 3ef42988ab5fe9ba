/-
# Names are taken apart into what they are composed of

A name is one of a kind exactly if it is composed of an own id and, for a nested kind, the id of a
parent, and neither of them is empty or has a slash in it. Then these ids and the name of the parent
are read off the name, so that no other kind and no other ids have the same name. It does not matter
whether an id looks like a collection. The id of a subsystem is read off every name below it.
-/
import StorageControl.Proofs.Name

namespace StorageControl.Name

open Text (Whole segments segments_slash)

variable {k l : Kind} {name p q c d : String}

/-- Ids of which the name of a resource of a kind is composed. Without a parent there is no id for
it. -/
structure Parts (k : Kind) (p c : String) : Prop where
  own_whole : Whole '/' c
  own_ne_empty : c ≠ ""
  parent_whole : k.parent?.isSome → Whole '/' p
  parent_ne_empty : k.parent?.isSome → p ≠ ""

/-- Ids that pass the check will do, whatever they look like. -/
theorem Parts.of_checked (hc : Check.id c = .ok ())
    (hp : k.parent?.isSome → Check.id p = .ok ()) : Parts k p c where
  own_whole := Check.whole_of_isId (Check.id_eq_ok_iff.1 hc)
  own_ne_empty := Check.ne_empty_of_isId (Check.id_eq_ok_iff.1 hc)
  parent_whole hk := Check.whole_of_isId (Check.id_eq_ok_iff.1 (hp hk))
  parent_ne_empty hk := Check.ne_empty_of_isId (Check.id_eq_ok_iff.1 (hp hk))

/-- Without a parent, its id may be taken to be whole. -/
theorem Parts.exists_whole (h : Parts k p c) :
    ∃ q, Whole '/' q ∧ compose k p c = compose k q c ∧ (k.parent?.isSome → q = p) := by
  cases hk : k.parent? with
  | none => exact ⟨"", by simp [Whole], by simp only [compose, hk], nofun⟩
  | some owner => exact ⟨p, h.parent_whole (by simp [hk]), rfl, fun _ => rfl⟩

/-- A name that is composed of such ids is one of the kind. -/
theorem Parts.kind?_eq (h : Parts k p c) : kind? (compose k p c) = some k := by
  obtain ⟨q, hq, hcompose, hsame⟩ := h.exists_whole
  rw [hcompose]
  refine kind?_compose k hq h.own_whole (fun hk => ?_) h.own_ne_empty
  rw [hsame hk]
  exact h.parent_ne_empty hk

/-- A name is one of a kind exactly if it is composed of such ids. -/
theorem kind?_eq_some_iff : kind? name = some k ↔ ∃ p c, Parts k p c ∧ name = compose k p c := by
  constructor
  · intro h
    obtain ⟨p, c, hname, hp, hc, hne, hpne⟩ := eq_compose_of_kind? h
    exact ⟨p, c, ⟨hc, hne, fun _ => hp, hpne⟩, hname⟩
  · rintro ⟨p, c, hparts, rfl⟩
    exact hparts.kind?_eq

/-- What is read off a name of a kind: its own id, the id of the parent, and the name of the parent,
of which a kind without parent has none. -/
structure Shows (k : Kind) (name p c : String) : Prop where
  own : ownId name = c
  parentId : ∀ owner, k.parent? = some owner → idIn name owner.collection = p
  parent : parent? k name = k.parent?.map fun owner => compose owner "" p

theorem Parts.shows (h : Parts k p c) : Shows k (compose k p c) p c := by
  obtain ⟨q, hq, hcompose, hsame⟩ := h.exists_whole
  rw [hcompose]
  refine ⟨ownId_compose k hq h.own_whole, fun owner howner => ?_, ?_⟩
  · rw [idIn_compose howner hq h.own_whole]
    exact hsame (by simp [howner])
  · cases hk : k.parent? with
    | none => simp only [parent?, hk, Option.map_none]
    | some owner =>
      obtain rfl := hsame (by simp [hk])
      exact parent?_compose hk hq h.own_whole (h.parent_ne_empty (by simp [hk]))

/-- No other kind and no other ids have the same name. -/
theorem Parts.unique (h : Parts k p c) (h' : Parts l q d) (hsame : compose k p c = compose l q d) :
    k = l ∧ c = d ∧ (k.parent?.isSome → p = q) := by
  have hkind := h.kind?_eq
  rw [hsame, h'.kind?_eq] at hkind
  obtain rfl : l = k := Option.some.inj hkind
  have hshows := h.shows
  rw [hsame] at hshows
  refine ⟨rfl, hshows.own.symm.trans h'.shows.own, fun hk => ?_⟩
  obtain ⟨owner, howner⟩ := Option.isSome_iff_exists.1 hk
  exact (hshows.parentId owner howner).symm.trans (h'.shows.parentId owner howner)

/-- The id of a subsystem is read off every name below it, whatever comes last in the name. -/
theorem subsystemId_compose (hk : k.parent? = some .subsystem) (hp : Whole '/' p) (c : String) :
    subsystemId (compose k p c) = p := by
  have hpieces : segments '/' (compose k p c) =
      authorityPieces ++ Kind.subsystem.collection :: p :: k.collection :: segments '/' c := by
    simp only [compose, hk, String.append_assoc]
    rw [segments_authority, segments_slash (whole_collection _), segments_slash hp,
      segments_slash (whole_collection k)]
  rw [subsystemId, idIn, hpieces]
  rfl

/-- Names of a kind are taken apart into what they are composed of. -/
structure Decomposed (k : Kind) : Prop where
  /-- A name is one of the kind exactly if it is composed of whole ids that are not empty. -/
  kind_iff : ∀ name, kind? name = some k ↔ ∃ p c, Parts k p c ∧ name = compose k p c
  /-- The ids and the name of the parent are read off a name that is composed of such ids. -/
  shows : ∀ p c, Parts k p c → Shows k (compose k p c) p c
  /-- No other kind and no other ids have the same name. -/
  unique : ∀ p c l q d, Parts k p c → Parts l q d → compose k p c = compose l q d →
    k = l ∧ c = d ∧ (k.parent?.isSome → p = q)
  /-- All of this holds of ids that pass the check. -/
  checked : ∀ p c, Check.id c = .ok () → (k.parent?.isSome → Check.id p = .ok ()) → Parts k p c
  /-- Below a subsystem its id, which may be empty here, is read off whatever comes last. -/
  below : k.parent? = some .subsystem → ∀ p c, Whole '/' p → subsystemId (compose k p c) = p

/-- Names of every kind are. -/
theorem compose_decomposed (k : Kind) : Decomposed k where
  kind_iff _ := kind?_eq_some_iff
  shows _ _ h := h.shows
  unique _ _ _ _ _ h h' hsame := h.unique h' hsame
  checked _ _ hc hp := .of_checked hc hp
  below hk _ c hp := subsystemId_compose hk hp c

/-- Ids that look like collections do not mislead. -/
example : kind? (compose .controller "controllers" "subsystems") = some .controller ∧
    idIn (compose .controller "controllers" "subsystems") "subsystems" = "controllers" := by
  decide

end StorageControl.Name
