/-
# Names are put together and taken apart

A text is determined by its pieces, and no piece holds the separator. So a name that is one of a
kind is the name composed of the ids in it, and the ids of a composed name are those it was
composed of. Ids that pass the check, and generated ids, are single pieces.
-/
import Mathlib.Data.List.Basic
import StorageControl.Check
import StorageControl.Inventory.Family
import StorageControl.Uuid

namespace StorageControl

namespace Text

/-! ## Pieces -/

/-- The pieces of a text make it up again. -/
theorem intercalate_cut (sep : Char) (s : List Char) : [sep].intercalate (cut sep s) = s := by
  induction s with
  | nil => rfl
  | cons c rest ih =>
    unfold cut
    obtain ⟨piece, pieces, h⟩ := List.exists_cons_of_ne_nil (cut_ne_nil sep rest)
    rw [h] at ih ⊢
    split
    · rename_i hc
      subst hc
      rw [List.intercalate_cons_cons, ih]
      rfl
    · -- The character belongs to the first piece, which may be the last as well.
      cases pieces with
      | nil => simpa [List.intercalate] using ih
      | cons next more =>
        rw [List.intercalate_cons_cons] at ih ⊢
        rw [← ih]
        simp

/-- No piece holds the separator. -/
theorem not_mem_of_mem_cut {sep : Char} {s piece : List Char} (h : piece ∈ cut sep s) :
    sep ∉ piece := by
  induction s generalizing piece with
  | nil =>
    have : piece = [] := by simpa [cut] using h
    simp [this]
  | cons c rest ih =>
    unfold cut at h
    obtain ⟨first, others, hcut⟩ := List.exists_cons_of_ne_nil (cut_ne_nil sep rest)
    rw [hcut] at h ih
    split at h
    · rcases List.mem_cons.1 h with rfl | h
      · simp
      · exact ih h
    · rename_i hc
      rcases List.mem_cons.1 h with rfl | h
      · intro hmem
        rcases List.mem_cons.1 hmem with h | h
        · exact hc h.symm
        · exact ih (by simp) h
      · exact ih (by simp [h])

/-- A text is a single piece. -/
def Whole (sep : Char) (s : String) : Prop :=
  sep ∉ s.toList

/-- Texts with the same pieces are the same. -/
theorem segments_injective {sep : Char} {s t : String} (h : segments sep s = segments sep t) :
    s = t := by
  have hcut : cut sep s.toList = cut sep t.toList :=
    List.map_injective_iff.2 (fun _ _ h => String.ofList_inj.1 h) h
  have := congrArg [sep].intercalate hcut
  rw [intercalate_cut, intercalate_cut] at this
  exact String.toList_inj.1 this

/-- The pieces of a text are whole. -/
theorem whole_of_mem_segments {sep : Char} {s piece : String} (h : piece ∈ segments sep s) :
    Whole sep piece := by
  obtain ⟨chars, hmem, rfl⟩ := List.mem_map.1 h
  simpa [Whole] using not_mem_of_mem_cut hmem

/-- A whole text is its only piece. -/
theorem segments_of_whole {sep : Char} {s : String} (h : Whole sep s) : segments sep s = [s] := by
  simp [segments, cut_of_not_mem h]

/-- A whole text before a slash is the first piece. -/
theorem segments_slash {s : String} (h : Whole '/' s) (rest : String) :
    segments '/' (s ++ ("/" ++ rest)) = s :: segments '/' rest := by
  have hlist : (s ++ ("/" ++ rest)).toList = s.toList ++ '/' :: rest.toList := by simp
  rw [segments, hlist, cut_append_sep h]
  simp [segments]

end Text

open Text (Whole segments segments_slash segments_of_whole)

/-! ## Checks in a row -/

/-- Checks in a row pass if each of them passes. -/
theorem Check.bind_eq_ok_iff {ε α β : Type} {e : Except ε α} {f : α → Except ε β} {b : β} :
    (e >>= f) = .ok b ↔ ∃ a, e = .ok a ∧ f a = .ok b := by
  cases e <;> simp [bind, Except.bind]

/-- What is only done unless something is wrong is done if nothing is wrong. -/
theorem Check.unless_eq_ok_iff {ε α : Type} {p : Prop} [Decidable p] {e : ε} {a b : α} :
    (if p then .error e else .ok a) = (.ok b : Except ε α) ↔ ¬ p ∧ a = b := by
  by_cases h : p <;> simp [h]

theorem Check.toOption_eq_some_iff {ε α : Type} {e : Except ε α} {a : α} :
    e.toOption = some a ↔ e = .ok a := by
  cases e <;> simp [Except.toOption]

/-- A name that passes the check is one of the kind. -/
theorem Check.kind?_of_nameOf {k : Kind} {name : String} (h : nameOf k name = .ok ()) :
    Name.kind? name = some k := by
  obtain ⟨-, -, h⟩ := bind_eq_ok_iff.1 h
  split at h
  · assumption
  · cases h

/-! ## Ids are whole -/

/-- An id passes the check when it is well formed. -/
theorem Check.id_eq_ok_iff {s : String} : Check.id s = .ok () ↔ isId s = true := by
  unfold Check.id
  split <;> simp_all

/-- The characters of ids are not slashes. -/
theorem Check.ne_slash_of_isIdChar {c : Char} (h : isIdChar c = true) : c ≠ '/' := by
  rintro rfl
  simp [isIdChar] at h

/-- A well-formed id is whole. -/
theorem Check.whole_of_isId {s : String} (h : isId s = true) : Whole '/' s := by
  unfold isId at h
  intro hmem
  split at h
  · simp_all
  · rename_i c rest heq
    rw [heq] at hmem
    simp only [Bool.and_eq_true, List.all_eq_true, Bool.or_eq_true] at h
    obtain ⟨⟨⟨hc, hrest⟩, -⟩, -⟩ := h
    rcases List.mem_cons.1 hmem with hs | hs
    · exact ne_slash_of_isIdChar hc hs.symm
    · rcases hrest _ hs with hd | hd
      · exact ne_slash_of_isIdChar hd rfl
      · simp at hd

/-- A well-formed id is not empty. -/
theorem Check.ne_empty_of_isId {s : String} (h : isId s = true) : s ≠ "" := by
  rintro rfl
  cases h

/-- A hexadecimal digit may stand in an id. -/
theorem Text.isIdChar_hexDigit {n : Nat} (h : n < 16) : Check.isIdChar (hexDigit n) = true := by
  revert n
  decide

/-- A generated id is well formed. -/
theorem Uuid.isId_text (bits : Nat) : Check.isId (text bits) = true := by
  have hdigit (n : Nat) : Check.isIdChar (Text.hexDigit (n % 16)) = true :=
    Text.isIdChar_hexDigit (Nat.mod_lt _ (by omega))
  have hvariant : Check.isIdChar (Text.hexDigit (8 + bits / Nat.pow 2 60 % 4)) = true :=
    Text.isIdChar_hexDigit (by omega)
  have hversion : Check.isIdChar '4' = true := by decide
  simp [Check.isId, text, digits, hdigit, hvariant, hversion, Check.idLengthBound]

namespace Name

/-! ## Pieces of composed names -/

/-- The pieces of the authority. -/
def authorityPieces : List String := ["", "", "storage.bridge.dev"]

/-- The pieces of what follows the authority. -/
def path (k : Kind) (parentId ownId : String) : List String :=
  match k.parent? with
  | some parent => [parent.collection, parentId, k.collection, ownId]
  | none => [k.collection, ownId]

theorem whole_collection (k : Kind) : Whole '/' k.collection := by
  cases k <;> simp [Whole, Kind.collection]

theorem segments_authority (rest : String) :
    segments '/' (authority ++ ("/" ++ rest)) = authorityPieces ++ segments '/' rest := by
  have hcut : authority = "" ++ ("/" ++ ("" ++ ("/" ++ "storage.bridge.dev"))) := by decide
  rw [hcut]
  simp only [String.append_assoc]
  rw [segments_slash (by simp [Whole]), segments_slash (by simp [Whole]),
    segments_slash (by simp [Whole])]
  rfl

/-- A name composed of whole ids is the authority, and then the pieces of its path. -/
theorem exists_rest_compose (k : Kind) {p i : String} (hp : Whole '/' p) (hi : Whole '/' i) :
    ∃ rest, compose k p i = authority ++ ("/" ++ rest) ∧ segments '/' rest = path k p i := by
  cases hk : k.parent? with
  | none =>
    refine ⟨k.collection ++ ("/" ++ i), ?_, ?_⟩
    · simp only [compose, hk, String.append_assoc]
    · rw [segments_slash (whole_collection k), segments_of_whole hi, path, hk]
  | some parent =>
    refine ⟨parent.collection ++ ("/" ++ (p ++ ("/" ++ (k.collection ++ ("/" ++ i))))), ?_, ?_⟩
    · simp only [compose, hk, String.append_assoc]
    · rw [segments_slash (whole_collection parent), segments_slash hp,
        segments_slash (whole_collection k), segments_of_whole hi, path, hk]

/-- The pieces of a name composed of whole ids. -/
theorem segments_compose (k : Kind) {p i : String} (hp : Whole '/' p) (hi : Whole '/' i) :
    segments '/' (compose k p i) = authorityPieces ++ path k p i := by
  obtain ⟨rest, hcompose, hpath⟩ := exists_rest_compose k hp hi
  rw [hcompose, segments_authority, hpath]

/-- The own id of a composed name. -/
theorem ownId_compose (k : Kind) {p i : String} (hp : Whole '/' p) (hi : Whole '/' i) :
    ownId (compose k p i) = i := by
  rw [ownId, segments_compose k hp hi]
  cases k <;> rfl

/-- The id of the parent in a composed name. -/
theorem idIn_compose {k parent : Kind} (hk : k.parent? = some parent) {p i : String}
    (hp : Whole '/' p) (hi : Whole '/' i) : idIn (compose k p i) parent.collection = p := by
  rw [idIn, segments_compose k hp hi]
  cases k <;> cases hk <;> rfl

/-- The id in the name of a parent. -/
theorem idIn_compose_parent {k parent : Kind} (hk : k.parent? = some parent) {i : String}
    (hi : Whole '/' i) : idIn (compose parent "" i) parent.collection = i := by
  rw [idIn, segments_compose parent (by simp [Whole]) hi]
  cases k <;> cases hk <;> rfl

/-- The id that follows a collection in a name is whole. -/
theorem whole_idIn (name collection : String) : Whole '/' (idIn name collection) := by
  have hafter (l : List String) (hl : ∀ piece ∈ l, Whole '/' piece) :
      Whole '/' (segmentAfter collection l) := by
    induction l with
    | nil => simp [segmentAfter, Whole]
    | cons piece rest ih =>
      have hrest : ∀ piece ∈ rest, Whole '/' piece := fun q hq => hl q (List.mem_cons_of_mem _ hq)
      unfold segmentAfter
      split
      · cases rest with
        | nil => simp [Whole]
        | cons next rest => exact hrest next List.mem_cons_self
      · exact ih hrest
  exact hafter _ fun _ => Text.whole_of_mem_segments

/-- Names that are composed of different ids under one parent are different. -/
theorem compose_inj {k : Kind} {p i j : String} : compose k p i = compose k p j ↔ i = j := by
  unfold compose
  split <;> exact String.append_right_inj _

theorem compose_ne_empty (k : Kind) (p i : String) : compose k p i ≠ "" := by
  intro h
  have hlist := congrArg String.toList h
  unfold compose at hlist
  split at hlist <;> simp [authority] at hlist

/-! ## Names of a kind -/

/-- What follows the authority in a name of a kind. -/
theorem eq_path_of_kindOfSegments? {pieces : List String} {k : Kind}
    (h : kindOfSegments? pieces = some k) :
    ∃ p i, pieces = path k p i ∧ i ≠ "" ∧ (k.parent?.isSome → p ≠ "") := by
  unfold kindOfSegments? at h
  split at h
  · cases h
  · rename_i hne
    simp only [List.any_eq_true, String.isEmpty_iff, not_exists, not_and] at hne
    split at h
    · rename_i c i
      have hi : i ≠ "" := hne i (by simp)
      refine ⟨"", i, ?_⟩
      repeat' split at h
      all_goals cases h
      all_goals simp_all [path, Kind.parent?]
    · rename_i parent p c i
      have hi : i ≠ "" := hne i (by simp)
      have hp : p ≠ "" := hne p (by simp)
      refine ⟨p, i, ?_⟩
      repeat' split at h
      all_goals cases h
      all_goals simp_all [path, Kind.parent?]
    · cases h

/-- A name of a kind is composed of whole ids. -/
theorem eq_compose_of_kind? {name : String} {k : Kind} (h : kind? name = some k) :
    ∃ p i, name = compose k p i ∧ Whole '/' p ∧ Whole '/' i ∧ i ≠ "" ∧
      (k.parent?.isSome → p ≠ "") := by
  unfold kind? at h
  split at h
  · cases h
  · rename_i rest hrest
    obtain ⟨p, i, hpath, hi, hp⟩ := eq_path_of_kindOfSegments? h
    have hname : name = authority ++ ("/" ++ String.ofList rest) := by
      rw [← String.toList_inj, Text.eq_append_of_dropStart? hrest]
      simp
    -- The pieces of a name are whole, so that composing them again gives the same pieces.
    have hwhole : ∀ piece ∈ path k p i, Whole '/' piece := by
      intro piece hmem
      rw [← hpath] at hmem
      exact Text.whole_of_mem_segments hmem
    have hpi : Whole '/' i := hwhole i (by unfold path; split <;> simp)
    cases hk : k.parent? with
    | none =>
      refine ⟨"", i, ?_, by simp [Whole], hpi, hi, by simp⟩
      apply Text.segments_injective
      show segments '/' name = segments '/' _
      rw [hname, segments_authority, hpath, segments_compose k (by simp [Whole]) hpi]
      simp [path, hk]
    | some parent =>
      have hpp : Whole '/' p := hwhole p (by simp [path, hk])
      refine ⟨p, i, ?_, hpp, hpi, hi, by simpa [hk] using hp⟩
      apply Text.segments_injective
      show segments '/' name = segments '/' _
      rw [hname, segments_authority, hpath, segments_compose k hpp hpi]

/-- A name composed of whole ids that are not empty is one of the kind. -/
theorem kind?_compose (k : Kind) {p i : String} (hp : Whole '/' p) (hi : Whole '/' i)
    (hpne : k.parent?.isSome → p ≠ "") (hine : i ≠ "") : kind? (compose k p i) = some k := by
  obtain ⟨rest, hcompose, hpath⟩ := exists_rest_compose k hp hi
  have hlist : (compose k p i).toList = (authority ++ "/").toList ++ rest.toList := by
    rw [hcompose]
    simp
  have hpieces : kindOfSegments? (path k p i) = some k := by
    cases k <;> simp_all [path, kindOfSegments?, Kind.parent?, Kind.collection]
  rw [kind?, hlist, Text.dropStart?_append]
  simp only [String.ofList_toList]
  rw [hpath, hpieces]

/-- The own id in a name of a kind is not empty. -/
theorem ownId_ne_empty {name : String} {k : Kind} (h : kind? name = some k) : ownId name ≠ "" := by
  obtain ⟨p, i, rfl, hp, hi, hne, -⟩ := eq_compose_of_kind? h
  rwa [ownId_compose k hp hi]

/-- The parent in a composed name. -/
theorem parent?_compose {k parent : Kind} (hk : k.parent? = some parent) {p i : String}
    (hp : Whole '/' p) (hi : Whole '/' i) (hne : p ≠ "") :
    parent? k (compose k p i) = some (compose parent "" p) := by
  unfold parent?
  split
  · simp_all
  · rename_i owner howner
    obtain rfl : parent = owner := by rw [hk] at howner; exact Option.some.inj howner
    simp only
    rw [idIn_compose hk hp hi, if_neg (by simpa using hne)]

/-- A name of a nested kind holds the name of a parent. -/
theorem parent?_ne_empty {k : Kind} {name : String} (h : kind? name = some k)
    (hk : k.parent?.isSome) : (parent? k name).getD "" ≠ "" := by
  obtain ⟨p, i, rfl, hp, hi, -, hne⟩ := eq_compose_of_kind? h
  obtain ⟨parent, hparent⟩ := Option.isSome_iff_exists.1 hk
  rw [parent?_compose hparent hp hi (hne hk), Option.getD_some]
  exact compose_ne_empty _ _ _

end Name

/-! ## Places -/

namespace Place

open Name

/-- A name that is one of a kind is the name of the place that its ids give. -/
theorem name_under_of_nameOf {k : Kind} {name : String} (h : Check.nameOf k name = .ok ()) :
    (under k ((Name.parent? k name).getD "") (ownId name)).name = name := by
  obtain ⟨p, i, rfl, hp, hi, -, hne⟩ := eq_compose_of_kind? (Check.kind?_of_nameOf h)
  rw [under, ownId_compose k hp hi]
  cases hk : k.parent? with
  | none => simp [compose, hk]
  | some parent =>
    rw [parent?_compose hk hp hi (hne (by simp [hk]))]
    simp only [Option.getD_some, parentId, hk]
    rw [idIn_compose_parent hk hp]

/-- The id of a place is the own id in its name. -/
theorem ownId_name_under (k : Kind) (parent : String) {id : String} (hid : Check.isId id = true) :
    Name.ownId (under k parent id).name = id := by
  have hparent : Whole '/' (parentId k parent) := by
    unfold parentId
    split
    · simp [Whole]
    · exact Name.whole_idIn _ _
  exact Name.ownId_compose k hparent (Check.whole_of_isId hid)

/-- The id of a new record is the fresh one or the caller's, which has passed the check. -/
theorem eq_of_idOf {fresh requested id : String} (h : idOf fresh requested = .ok id) :
    (requested = "" ∧ id = fresh) ∨ (id = requested ∧ Check.isId requested = true) := by
  unfold idOf at h
  split at h
  · rename_i hempty
    cases h
    exact .inl ⟨String.isEmpty_iff.1 hempty, rfl⟩
  · obtain ⟨_, hcheck, h⟩ := Check.bind_eq_ok_iff.1 h
    cases h
    exact .inr ⟨rfl, Check.id_eq_ok_iff.1 hcheck⟩

/-- An id for a new record is well formed, if the fresh one is when it is needed. -/
theorem isId_of_idOf {fresh requested id : String}
    (hfresh : requested = "" → Check.isId fresh = true) (h : idOf fresh requested = .ok id) :
    Check.isId id = true := by
  rcases eq_of_idOf h with ⟨hempty, rfl⟩ | ⟨rfl, hid⟩
  · exact hfresh hempty
  · exact hid

/-- A parent that is given explicitly is the parent. -/
theorem eq_of_parentOf {k : Kind} {explicit reference parent : String}
    (h : parentOf k explicit reference = .ok parent) (hne : k.parent?.isSome → explicit ≠ "")
    (hnone : k.parent? = none → explicit = "") : parent = explicit := by
  unfold parentOf at h
  split at h
  · rename_i hk
    cases h
    exact (hnone hk).symm
  · rename_i owner hk
    have hexplicit : explicit.isEmpty = false := by
      rw [Bool.eq_false_iff, Ne, String.isEmpty_iff]
      exact hne (by simp [hk])
    obtain ⟨-, -, h⟩ := Check.bind_eq_ok_iff.1 h
    obtain ⟨-, -, h⟩ := Check.bind_eq_ok_iff.1 h
    cases h
    simp [hexplicit]

end Place

end StorageControl
