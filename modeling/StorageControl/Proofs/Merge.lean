/-
# What a masked update takes over

A masked update copies what stands at the listed paths. The paths are paths of the update, and the
written form of a record is a tree whose leaves are numbers, texts, words and nulls. So a leaf is
copied exactly when one of the listed paths leads to it or to something it is a part of, and it
stays as it was otherwise, whatever else is listed and in whatever order.
-/
import StorageControl.Mask
import StorageControl.Proofs.Codec
import StorageControl.Proofs.Revision

namespace StorageControl

/-! ## Paths in values -/

namespace Json

/-- A path is walked piece by piece. -/
theorem lookup?_append (p q : List String) (v : Json) :
    lookup? (p ++ q) v = (lookup? p v).bind (lookup? q) := by
  induction p generalizing v with
  | nil => rfl
  | cons key p ih =>
    simp only [List.cons_append, lookup?]
    cases v.member? key with
    | none => rfl
    | some w => exact ih w

/-- A path of two keys is walked in two steps. -/
theorem lookup?_pair (key field : String) (v : Json) :
    lookup? [key, field] v = (lookup? [key] v).bind (lookup? [field]) :=
  lookup?_append [key] [field] v

/-- What the members are when one of them is put into a value. -/
theorem member?_obj_insert (key other : String) (new v : Json) :
    (Json.obj (Assoc.insert key new v.members)).member? other =
      if other = key then some new else v.member? other := by
  have hmember : v.member? other = Assoc.find? other v.members := by
    cases v <;> rfl
  rw [hmember]
  exact Assoc.find?_insert key other new v.members

/-- Below an assigned path stands what was assigned. -/
theorem lookup?_assign_append (new : Json) (p q : List String) (v : Json) :
    lookup? (p ++ q) (assign new p v) = lookup? q new := by
  rw [lookup?_append, lookup?_assign]
  rfl

/-- An empty object holds nothing. -/
theorem lookup?_obj_nil {p : List String} (hp : p ≠ []) : lookup? p (.obj []) = none := by
  obtain ⟨key, rest, rfl⟩ := List.exists_cons_of_ne_nil hp
  rfl

/-- Beside an assigned path everything stays. -/
theorem lookup?_assign_of_aside (new : Json) {p q : List String} (v : Json) (hp : ¬ p <+: q)
    (hq : ¬ q <+: p) : lookup? p (assign new q v) = lookup? p v := by
  induction q generalizing p v with
  | nil => exact absurd List.nil_prefix hq
  | cons k q ih =>
    cases p with
    | nil => exact absurd List.nil_prefix hp
    | cons j p =>
      simp only [lookup?, assign, member?_obj_insert]
      by_cases hj : j = k
      · subst hj
        rw [List.cons_prefix_cons] at hp hq
        have hp : ¬ p <+: q := fun h => hp ⟨rfl, h⟩
        have hq : ¬ q <+: p := fun h => hq ⟨rfl, h⟩
        rw [if_pos rfl, Option.bind_some, ih _ hp hq]
        cases v.member? j with
        | some w => rfl
        | none =>
          refine lookup?_obj_nil ?_
          rintro rfl
          exact hp List.nil_prefix
      · rw [if_neg hj]

/-- Nothing stands below a path. -/
def EndsAt (p : List String) (v : Json) : Prop :=
  ∀ q, q ≠ [] → lookup? (p ++ q) v = none

end Json

/-! ## Copying the listed paths -/

namespace FieldMask

open Json (EndsAt lookup?)

variable {source target : Json} {paths : List String} {p : List String}

/-- Every listed path is one of the update. -/
theorem isSome_of_checkPaths (h : checkPaths source paths = .ok ()) :
    ∀ listed ∈ paths, (lookup? (keys listed) source).isSome := by
  induction paths with
  | nil =>
    intro listed hmem
    cases hmem
  | cons path paths ih =>
    obtain ⟨_, hpath, h⟩ := Check.bind_eq_ok_iff.1 h
    intro listed hmem
    rcases List.mem_cons.1 hmem with rfl | hmem
    · rw [Option.isSome_iff_ne_none]
      intro hnone
      simp only [checkPath, hnone, Option.isNone_none, if_true] at hpath
      repeat' split at hpath
      all_goals cases hpath
    · exact ih h listed hmem

/-- One of the listed paths leads to the path or to something that it is a part of. -/
def covers (paths : List String) (path : List String) : Bool :=
  paths.any fun listed => (keys listed).isPrefixOf path

theorem covers_eq_true_iff : covers paths p = true ↔ ∃ listed ∈ paths, keys listed <+: p := by
  simp [covers]

/-- What stands beside all of the listed paths stays. -/
theorem lookup?_foldl_copyPath_of_aside
    (haside : ∀ listed ∈ paths, ¬ keys listed <+: p ∧ ¬ p <+: keys listed) :
    lookup? p (paths.foldl (copyPath source) target) = lookup? p target := by
  induction paths generalizing target with
  | nil => rfl
  | cons path paths ih =>
    rw [List.foldl_cons, ih fun listed hmem => haside listed (List.mem_cons_of_mem _ hmem)]
    obtain ⟨hpath, hp⟩ := haside path List.mem_cons_self
    unfold copyPath
    cases lookup? (keys path) source with
    | none => rfl
    | some v => exact Json.lookup?_assign_of_aside v target hp hpath

/-- A leaf of the update is copied with a path that leads to it or to something that it is a part
of, and is not touched with any other path of the update. -/
theorem lookup?_copyPath {path : String} (hpath : (lookup? (keys path) source).isSome)
    (hleaf : EndsAt p source) :
    lookup? p (copyPath source target path) =
      if keys path <+: p then lookup? p source else lookup? p target := by
  obtain ⟨v, hv⟩ := Option.isSome_iff_exists.1 hpath
  have hcopy : copyPath source target path = Json.assign v (keys path) target := by
    rw [copyPath, hv]
  rw [hcopy]
  split
  · rename_i hcover
    obtain ⟨q, rfl⟩ := hcover
    rw [Json.lookup?_assign_append, Json.lookup?_append, hv]
    rfl
  · rename_i hcover
    refine Json.lookup?_assign_of_aside v target ?_ hcover
    rintro ⟨q, hq⟩
    have hne : q ≠ [] := by
      rintro rfl
      rw [List.append_nil] at hq
      exact hcover (hq ▸ List.prefix_refl p)
    rw [← hq, hleaf q hne] at hv
    cases hv

/-- A leaf of the update is copied if it is covered, and stays otherwise. -/
theorem lookup?_foldl_copyPath (target : Json)
    (hpaths : ∀ listed ∈ paths, (lookup? (keys listed) source).isSome) (hleaf : EndsAt p source) :
    lookup? p (paths.foldl (copyPath source) target) =
      if covers paths p then lookup? p source else lookup? p target := by
  induction paths generalizing target with
  | nil => rfl
  | cons path paths ih =>
    rw [List.foldl_cons, ih _ fun listed hmem => hpaths listed (List.mem_cons_of_mem _ hmem),
      lookup?_copyPath (hpaths path List.mem_cons_self) hleaf]
    by_cases hpath : keys path <+: p <;> simp [covers, hpath]

end FieldMask

/-! ## Fields of records -/

namespace Codec

variable {ρ γ δ : Type}

/-- What is built with one more field: the value under its key is read, or else it has its default
value. -/
theorem Fields.decode_add_eq_some_iff {β : Type} (p : Fields ρ (γ → β)) (key : String)
    (c : Codec γ) (get : ρ → γ) (presence : Presence) (absent : Option γ) (silent : γ → Bool)
    (find : String → Option Json) (b : β) :
    (p.add key c get presence absent silent).decode find = some b ↔
      ∃ f v, p.decode find = some f ∧ (find key).elim absent c.decode = some v ∧ f v = b := by
  simp only [Fields.add]
  cases p.decode find <;> cases find key with
  | none => cases absent <;> simp
  | some w => cases hw : c.decode w <;> simp [hw]

theorem Fields.decode_of_eq_some_iff {β : Type} (make : β) (find : String → Option Json) (b : β) :
    (Fields.of ρ make).decode find = some b ↔ make = b := by
  simp [Fields.of]

@[simp] theorem Fields.encode_of {β : Type} (make : β) (r : ρ) : (Fields.of ρ make).encode r = [] :=
  rfl

/-- What is written gets one more member for one more field that is always written. -/
@[simp] theorem Fields.encode_required {β : Type} (p : Fields ρ (γ → β)) (key : String)
    (c : Codec γ) (get : ρ → γ) (r : ρ) :
    (p.required key c get).encode r = p.encode r ++ [(key, c.encode (get r))] :=
  rfl

@[simp] theorem Fields.encode_defaulted {β : Type} (p : Fields ρ (γ → β)) (key : String)
    (c : Codec γ) (get : ρ → γ) (value : γ) (r : ρ) :
    (p.defaulted key c get value).encode r = p.encode r ++ [(key, c.encode (get r))] :=
  rfl

@[simp] theorem Fields.encode_nullable {β : Type} (p : Fields ρ (Option γ → β)) (key : String)
    (c : Codec γ) (get : ρ → Option γ) (r : ρ) :
    (p.nullable key c get).encode r = p.encode r ++ [(key, c.nullable.encode (get r))] :=
  rfl

/-- In what is written for a record a value of type `γ` stands at a path, and a record that is read
has the value that stood there. -/
structure HasField (c : Codec ρ) (path : List String) (d : Codec γ) (get : ρ → γ) : Prop where
  writes : ∀ r, Json.lookup? path (c.encode r) = some (d.encode (get r))
  reads : ∀ {v r w}, c.decode v = some r → Json.lookup? path v = some w → d.decode w = some (get r)

/-- A field of a record is found under its key. -/
theorem HasField.of_record {p : Fields ρ ρ} {key : String} {d : Codec γ} {get : ρ → γ}
    (hnodup : ∀ r, ((p.encode r).map (·.1)).Nodup)
    (hwrites : ∀ r, Assoc.find? key (p.encode r) = some (d.encode (get r)))
    (hreads : ∀ members r w, (record p).decode (.obj members) = some r →
      Assoc.find? key members = some w → d.decode w = some (get r)) :
    (record p).HasField [key] d get where
  writes r := by
    show (Assoc.find? key (Assoc.ofList (p.encode r))).bind _ = _
    rw [Assoc.find?_ofList (hnodup r), hwrites r]
    rfl
  reads {v r w} hdecode hw := by
    cases v with
    | obj members =>
      refine hreads members r w hdecode ?_
      simpa [Json.lookup?, Json.member?] using hw
    | _ => cases hw

/-- A field of a field is found under both keys. -/
theorem HasField.trans {c : Codec ρ} {d : Codec γ} {e : Codec δ} {p q : List String}
    {get : ρ → γ} {get' : γ → δ} (h : c.HasField p d get) (h' : d.HasField q e get') :
    c.HasField (p ++ q) e fun r => get' (get r) where
  writes r := by
    rw [Json.lookup?_append, h.writes]
    exact h'.writes (get r)
  reads {v r w} hdecode hw := by
    rw [Json.lookup?_append] at hw
    obtain ⟨u, hu, hw⟩ := Option.bind_eq_some_iff.1 hw
    exact h'.reads (h.reads hdecode hu) hw

end Codec

/-! ### Leaves -/

namespace Codec

variable {ρ γ δ σ : Type}

/-- What is written for a value has no parts. -/
def Flat (c : Codec γ) : Prop :=
  ∀ a, Json.EndsAt [] (c.encode a)

theorem int32_flat : int32.Flat := by
  rintro a (_ | ⟨key, q⟩) hq
  · exact absurd rfl hq
  · rfl

theorem text_flat : text.Flat := by
  rintro a (_ | ⟨key, q⟩) hq
  · exact absurd rfl hq
  · rfl

theorem flag_flat : flag.Flat := by
  rintro a (_ | ⟨key, q⟩) hq
  · exact absurd rfl hq
  · rfl

theorem word_flat (name : γ → String) (words : List (String × γ)) : (word name words).Flat := by
  rintro a (_ | ⟨key, q⟩) hq
  · exact absurd rfl hq
  · rfl

/-- A field without parts is a leaf of what is written for a record. -/
theorem HasField.endsAt {c : Codec ρ} {path : List String} {d : Codec γ} {get : ρ → γ}
    (h : c.HasField path d get) (hflat : d.Flat) (r : ρ) : Json.EndsAt path (c.encode r) := by
  intro q hq
  rw [Json.lookup?_append, h.writes]
  exact hflat (get r) q hq

end Codec

/-- A record is read with the value that stands at a path. -/
theorem Codec.HasField.get_eq {ρ γ : Type} {c : Codec ρ} {path : List String} {d : Codec γ}
    {get : ρ → γ} (h : c.HasField path d get) (hlawful : d.Lawful) {v : Json} {r : ρ} {a : γ}
    (hread : c.decode v = some r) (ha : Json.lookup? path v = some (d.encode a)) : get r = a := by
  have hdecode := h.reads hread ha
  rw [hlawful a] at hdecode
  exact (Option.some.inj hdecode).symm

/-! ### Records with a single field -/

namespace Codec

variable {γ σ : Type}

/-- Records with a single field, which must be there. -/
abbrev single (field : String) (e : Codec γ) (make : γ → σ) (value : σ → γ) : Codec σ :=
  .record <| (Fields.of σ make).required field e value

variable {field : String} {e : Codec γ} {make : γ → σ} {value : σ → γ}

theorem encode_single (a : σ) :
    (single field e make value).encode a = .obj [(field, e.encode (value a))] :=
  rfl

/-- The only paths in what is written are the empty one and that of the field. -/
theorem eq_of_isSome_single (hflat : e.Flat) {a : σ} {q : List String}
    (h : (Json.lookup? q ((single field e make value).encode a)).isSome) :
    q = [] ∨ q = [field] := by
  rw [encode_single] at h
  cases q with
  | nil => exact .inl rfl
  | cons key q =>
    rw [Json.lookup?, Json.member?, Assoc.find?_cons] at h
    split at h
    · rename_i hkey
      by_cases hq : q = []
      · exact .inr (by rw [hkey, hq])
      · rw [Option.bind_some, ← List.nil_append q, hflat (value a) q hq] at h
        cases h
    · cases h

/-- A value in which the field stands is read as the record with that field. -/
theorem decode_nullable_single (hlawful : e.Lawful) {v : Json} {a : γ}
    (h : Json.lookup? [field] v = some (e.encode a)) :
    (single field e make value).nullable.decode v = some (some (make a)) := by
  cases v with
  | obj members =>
    have hfind : Assoc.find? field members = some (e.encode a) := by
      simpa [Json.lookup?, Json.member?] using h
    have hread : (single field e make value).decode (.obj members) = some (make a) := by
      refine (Fields.decode_add_eq_some_iff (Fields.of σ make) field e value .required none
        (fun _ => false) _ _).2 ⟨make, a, rfl, ?_, rfl⟩
      rw [hfind]
      exact hlawful a
    exact congrArg (Option.map some) hread
  | _ => cases h

theorem lookup?_encode_single (a : σ) :
    Json.lookup? [field] ((single field e make value).encode a) = some (e.encode (value a)) := by
  simp [encode_single, Json.lookup?, Json.member?, Assoc.find?_cons]

/-- A record with a single field is read as it was written, and so is null in its place. -/
theorem nullable_single_lawful (hmake : ∀ a, make (value a) = a) (hlawful : e.Lawful) :
    (single field e make value).nullable.Lawful := by
  rintro (_ | a)
  · rfl
  · have hread : (single field e make value).nullable.decode
        ((single field e make value).encode a) = some (some (make (value a))) :=
      decode_nullable_single hlawful (lookup?_encode_single a)
    rw [hmake a] at hread
    exact hread

section

variable {ρ : Type} {c : Codec ρ} {key : String} {get : ρ → Option σ} {r : ρ} {a : σ}

/-- Where such a record is there, its field stands in what is written. -/
theorem HasField.lookup?_of_some
    (h : c.HasField [key] (single field e make value).nullable get) (hsome : get r = some a) :
    Json.lookup? [key, field] (c.encode r) = some (e.encode (value a)) := by
  rw [Json.lookup?_pair, h.writes, hsome]
  exact lookup?_encode_single a

theorem HasField.endsAt_of_some (h : c.HasField [key] (single field e make value).nullable get)
    (hflat : e.Flat) (hsome : get r = some a) : Json.EndsAt [key, field] (c.encode r) := by
  intro q hq
  rw [Json.lookup?_append, h.lookup?_of_some hsome]
  exact hflat (value a) q hq

theorem HasField.endsAt_of_none (h : c.HasField [key] (single field e make value).nullable get)
    (hnone : get r = none) : Json.EndsAt [key] (c.encode r) := by
  rintro (_ | ⟨first, q⟩) hq
  · exact absurd rfl hq
  · rw [Json.lookup?_append, h.writes, hnone]
    rfl

/-- With its field alone such a record is read as there. -/
theorem HasField.get_of_lookup? (h : c.HasField [key] (single field e make value).nullable get)
    (hmake : ∀ a, make (value a) = a) (hlawful : e.Lawful) {v : Json} (hread : c.decode v = some r)
    (hthere : Json.lookup? [key, field] v = some (e.encode (value a))) : get r = some a := by
  rw [Json.lookup?_pair] at hthere
  obtain ⟨w, hw, hthere⟩ := Option.bind_eq_some_iff.1 hthere
  have hdecode := h.reads hread hw
  rw [decode_nullable_single hlawful hthere, hmake a] at hdecode
  exact (Option.some.inj hdecode).symm

end

end Codec

/-! ### Merged fields -/

namespace FieldMask

open Codec (HasField)

variable {ρ γ σ : Type} [Resource ρ] {existing update merged : ρ} {mask : Option FieldMask}

/-- What is merged under a mask takes a path over from the update. -/
def takes (mask : Option FieldMask) (path : List String) : Bool :=
  (selective? mask).elim true fun selected => covers selected.paths path

/-- A merged record is the update, or what is read when the listed paths have been copied, with the
name of the existing record. -/
theorem cases_of_merge (h : merge existing update mask = .ok merged) :
    (selective? mask = none ∧ merged = Resource.rename (Resource.name existing) update) ∨
      ∃ selected read, selective? mask = some selected ∧
        (∀ listed ∈ selected.paths, (Json.lookup? (keys listed)
          ((Resource.codec : Codec ρ).encode update)).isSome) ∧
        (Resource.codec : Codec ρ).decode (selected.paths.foldl
          (copyPath ((Resource.codec : Codec ρ).encode update))
          ((Resource.codec : Codec ρ).encode existing)) = some read ∧
        merged = Resource.rename (Resource.name existing) read := by
  unfold merge at h
  cases hmask : selective? mask with
  | none =>
    rw [hmask] at h
    cases h
    exact .inl ⟨rfl, rfl⟩
  | some selected =>
    rw [hmask] at h
    obtain ⟨_, hcheck, h⟩ := Check.bind_eq_ok_iff.1 h
    have hpaths :
        checkPaths ((Resource.codec : Codec ρ).encode update) selected.paths = .ok () := by
      have hselects : selected.isFullReplace = false := by
        simpa using (Option.filter_eq_some_iff.1 hmask).2
      unfold check at hcheck
      rwa [hselects, if_neg Bool.false_ne_true] at hcheck
    split at h
    · rename_i read hread
      cases h
      exact .inr ⟨selected, read, rfl, isSome_of_checkPaths hpaths, hread, rfl⟩
    · cases h

/-- A field without parts is taken over from the update if its path is, and stays otherwise. -/
theorem get_of_merge {path : List String} {d : Codec γ} {get : ρ → γ}
    (hfield : (Resource.codec : Codec ρ).HasField path d get) (hflat : d.Flat) (hlawful : d.Lawful)
    (hname : ∀ name (r : ρ), get (Resource.rename name r) = get r)
    (h : merge existing update mask = .ok merged) :
    get merged = if takes mask path then get update else get existing := by
  rcases cases_of_merge h with ⟨hmask, rfl⟩ | ⟨selected, read, hmask, hpaths, hread, rfl⟩
  · rw [hname, takes, hmask]
    rfl
  · have hlookup := lookup?_foldl_copyPath ((Resource.codec : Codec ρ).encode existing)
      hpaths (hfield.endsAt hflat update)
    rw [hfield.writes, hfield.writes] at hlookup
    rw [hname, takes, hmask, Option.elim_some]
    split at hlookup <;> rename_i hcovers
    · rw [if_pos hcovers]
      exact hfield.get_eq hlawful hread hlookup
    · rw [if_neg hcovers]
      exact hfield.get_eq hlawful hread hlookup

variable {key field : String} {e : Codec γ} {make : γ → σ} {value : σ → γ} {get : ρ → Option σ}

/-- Where the update has null, its paths cover the field if they cover the null. -/
theorem covers_pair_of_none
    (hfield : (Resource.codec : Codec ρ).HasField [key]
      (Codec.single field e make value).nullable get)
    (hnone : get update = none) {paths : List String}
    (hpaths : ∀ listed ∈ paths, (Json.lookup? (keys listed)
      ((Resource.codec : Codec ρ).encode update)).isSome) :
    covers paths [key, field] = covers paths [key] := by
  have hnull : Json.lookup? [key, field] ((Resource.codec : Codec ρ).encode update) = none := by
    rw [Json.lookup?_pair, hfield.writes, hnone]
    rfl
  rw [Bool.eq_iff_iff, covers_eq_true_iff, covers_eq_true_iff]
  constructor
  · rintro ⟨listed, hmem, hcovers⟩
    rcases List.prefix_concat_iff.1 (show keys listed <+: [key] ++ [field] from hcovers) with
      hfull | hcovers
    · have hsome := hpaths listed hmem
      rw [hfull, show [key] ++ [field] = [key, field] from rfl, hnull] at hsome
      cases hsome
    · exact ⟨listed, hmem, hcovers⟩
  · rintro ⟨listed, hmem, hcovers⟩
    exact ⟨listed, hmem, hcovers.trans (List.prefix_append [key] [field])⟩

/-- Where the update has a record with a single field, its paths either cover the field or lie
beside the record. -/
theorem aside_of_not_covers
    (hfield : (Resource.codec : Codec ρ).HasField [key]
      (Codec.single field e make value).nullable get)
    (hflat : e.Flat) {a : σ} (hsome : get update = some a) {paths : List String}
    (hpaths : ∀ listed ∈ paths, (Json.lookup? (keys listed)
      ((Resource.codec : Codec ρ).encode update)).isSome)
    (hcovers : ¬ covers paths [key, field] = true) :
    ∀ listed ∈ paths, ¬ keys listed <+: [key] ∧ ¬ [key] <+: keys listed := by
  rw [covers_eq_true_iff] at hcovers
  intro listed hmem
  constructor
  · intro hkey
    exact hcovers ⟨listed, hmem, hkey.trans (List.prefix_append [key] [field])⟩
  · rintro ⟨q, hq⟩
    have hbelow := hpaths listed hmem
    rw [← hq, Json.lookup?_append, hfield.writes, hsome] at hbelow
    refine hcovers ⟨listed, hmem, ?_⟩
    rcases Codec.eq_of_isSome_single hflat hbelow with rfl | rfl
    · rw [← hq]
      exact List.prefix_append [key] [field]
    · rw [← hq]
      exact List.prefix_refl [key, field]

/-- A record with a single field, which is null or there as a whole, is taken over from the update
if its field is, and stays otherwise. -/
theorem get_of_merge_report
    (hfield : (Resource.codec : Codec ρ).HasField [key]
      (Codec.single field e make value).nullable get)
    (hmake : ∀ a, make (value a) = a) (hflat : e.Flat) (hlawful : e.Lawful)
    (hname : ∀ name (r : ρ), get (Resource.rename name r) = get r)
    (h : merge existing update mask = .ok merged) :
    get merged = if takes mask [key, field] then get update else get existing := by
  have hsingle : (Codec.single field e make value).nullable.Lawful :=
    Codec.nullable_single_lawful hmake hlawful
  rcases cases_of_merge h with ⟨hmask, rfl⟩ | ⟨selected, read, hmask, hpaths, hread, rfl⟩
  · rw [hname, takes, hmask]
    rfl
  · rw [hname, takes, hmask, Option.elim_some]
    cases hupdate : get update with
    | none =>
      have hlookup := lookup?_foldl_copyPath ((Resource.codec : Codec ρ).encode existing) hpaths
        (hfield.endsAt_of_none hupdate)
      rw [hfield.writes, hfield.writes, hupdate] at hlookup
      rw [covers_pair_of_none hfield hupdate hpaths]
      split at hlookup <;> rename_i hcovers
      · rw [if_pos hcovers]
        exact hfield.get_eq hsingle hread hlookup
      · rw [if_neg hcovers]
        exact hfield.get_eq hsingle hread hlookup
    | some a =>
      by_cases hcovers : covers selected.paths [key, field] = true
      · have hlookup := lookup?_foldl_copyPath ((Resource.codec : Codec ρ).encode existing) hpaths
          (hfield.endsAt_of_some hflat hupdate)
        rw [if_pos hcovers, hfield.lookup?_of_some hupdate] at hlookup
        rw [if_pos hcovers]
        exact hfield.get_of_lookup? hmake hlawful hread hlookup
      · -- The paths lie beside the record, since there is nothing else in it.
        rw [if_neg hcovers]
        refine hfield.get_eq hsingle hread ?_
        rw [lookup?_foldl_copyPath_of_aside
          (aside_of_not_covers hfield hflat hupdate hpaths hcovers), hfield.writes]

end FieldMask

end StorageControl
