/-
# What a masked update gives

A masked update gives a record that is written like the update at the listed paths and like the
existing record beside them. It has the name of the existing record, because no path that a mask may
hold leads to the name. Only the set of the paths counts, however they are spelled, and a record that
is updated with itself stays as it is.
-/
import StorageControl.Proofs.Transparent

namespace StorageControl

open Json (lookup?)

/-! ## Names -/

/-- What is written for a record begins with its name, and has no wildcard among its keys. -/
theorem Kind.exists_members (k : Kind) (r : k.Record) :
    ∃ rest, (Resource.codec : Codec k.Record).encode r =
        .object (("name", .str (Resource.name r)) :: rest) ∧
      (("name" :: rest.map (·.1)).Nodup) ∧ "*" ∉ rest.map (·.1) := by
  cases k
  all_goals
    refine ⟨_, rfl, ?_, ?_⟩
    · simp
    · simp

/-- The first member of an object is found under its key if the keys are different. -/
theorem Json.lookup?_object_head {key : String} {v : Json} {rest : List (String × Json)}
    (hnodup : (key :: rest.map (·.1)).Nodup) :
    lookup? [key] (.object ((key, v) :: rest)) = some v := by
  have hfind := Assoc.find?_ofList (l := (key, v) :: rest) hnodup key
  rw [Assoc.find?_cons, if_pos rfl] at hfind
  simp [lookup?, Json.object, Json.member?, hfind]

/-- The name is written under its key, in records of every kind. -/
theorem Kind.lookup?_name (k : Kind) (r : k.Record) :
    lookup? ["name"] ((Resource.codec : Codec k.Record).encode r) =
      some (.str (Resource.name r)) := by
  obtain ⟨rest, hwritten, hnodup, -⟩ := k.exists_members r
  rw [hwritten]
  exact Json.lookup?_object_head hnodup

/-- Nothing is written under the wildcard. -/
theorem Kind.lookup?_wildcard (k : Kind) (r : k.Record) :
    lookup? ["*"] ((Resource.codec : Codec k.Record).encode r) = none := by
  obtain ⟨rest, hwritten, hnodup, hwild⟩ := k.exists_members r
  have hfind := Assoc.find?_ofList (l := ("name", Json.str (Resource.name r)) :: rest) hnodup "*"
  rw [Assoc.find?_cons, if_neg (by decide), Assoc.find?_eq_none_of_not_mem hwild] at hfind
  rw [hwritten]
  simp [lookup?, Json.object, Json.member?, hfind]

theorem Kind.rename_name (k : Kind) (r : k.Record) :
    Resource.rename (Resource.name r) r = r := by
  cases k <;> rfl

namespace FieldMask

variable {source : Json} {path : String} {paths : List String} {mask other : FieldMask}

/-! ## Paths of a mask -/

theorem keys_wildcard : keys wildcard = ["*"] := by
  decide +kernel

theorem keys_ne_nil (path : String) : keys path ≠ [] := by
  intro h
  exact Text.cut_ne_nil '.' path.toList (List.map_eq_nil_iff.1 h)

/-- A path may be listed if its keys lead to something that is written, and not to the name. -/
structure Listable (source : Json) (ks : List String) : Prop where
  filled : ks.any String.isEmpty = false
  unnamed : ks ≠ ["name"]
  there : (lookup? ks source).isSome

/-- Whether a path may be listed depends on its keys alone. -/
theorem checkPath_eq_ok_iff (hwild : lookup? ["*"] source = none) :
    checkPath source path = .ok () ↔ Listable source (keys path) := by
  constructor
  · intro h
    simp only [checkPath] at h
    split at h
    · cases h
    split at h
    · cases h
    rename_i hfilled
    split at h
    · cases h
    rename_i hname
    split at h
    · cases h
    rename_i hthere
    exact ⟨eq_false_of_ne_true hfilled, hname, by simpa [Option.isSome_iff_ne_none] using hthere⟩
  · intro h
    have hpath : path ≠ wildcard := by
      rintro rfl
      have hthere := h.there
      rw [keys_wildcard, hwild] at hthere
      cases hthere
    have hnone : (lookup? (keys path) source).isNone = false := by
      rw [← Option.not_isSome, h.there, Bool.not_true]
    simp only [checkPath, if_neg hpath, h.filled, if_neg h.unnamed, hnone]
    rfl

theorem checkPaths_eq_ok_iff (hwild : lookup? ["*"] source = none) :
    checkPaths source paths = .ok () ↔ ∀ path ∈ paths, Listable source (keys path) := by
  induction paths with
  | nil => simp [checkPaths]
  | cons path paths ih =>
    rw [List.forall_mem_cons, ← ih, ← checkPath_eq_ok_iff hwild, checkPaths, Check.bind_eq_ok_iff]
    constructor
    · rintro ⟨⟨⟩, hpath, hpaths⟩
      exact ⟨hpath, hpaths⟩
    · rintro ⟨hpath, hpaths⟩
      exact ⟨(), hpath, hpaths⟩

/-- A selective mask may be given if all of its paths may be listed. -/
theorem check_eq_ok_iff (hwild : lookup? ["*"] source = none) (hmask : mask.isFullReplace = false) :
    mask.check source = .ok () ↔ ∀ path ∈ mask.paths, Listable source (keys path) := by
  rw [check, hmask, if_neg Bool.false_ne_true]
  exact checkPaths_eq_ok_iff hwild

/-- A mask that may not be given is not refused for what the merged record would be. -/
theorem checkPaths_ne_mergeUnfit : checkPaths source paths ≠ .error .mergeUnfit := by
  induction paths with
  | nil => nofun
  | cons path paths ih =>
    intro h
    rw [checkPaths] at h
    cases hpath : checkPath source path with
    | ok done =>
      rw [hpath] at h
      exact ih h
    | error rejection =>
      rw [hpath] at h
      obtain rfl : rejection = .mergeUnfit := Except.error.inj h
      simp only [checkPath] at hpath
      repeat' split at hpath
      all_goals cases hpath

/-- Two masks list the same paths, in any order and spelling. -/
def SamePaths (mask other : FieldMask) : Prop :=
  ∀ ks, (∃ path ∈ mask.paths, keys path = ks) ↔ ∃ path ∈ other.paths, keys path = ks

theorem SamePaths.forall_iff (h : mask.SamePaths other) (P : List String → Prop) :
    (∀ path ∈ mask.paths, P (keys path)) ↔ ∀ path ∈ other.paths, P (keys path) := by
  constructor
  · intro hall path hmem
    obtain ⟨listed, hlisted, hkeys⟩ := (h (keys path)).2 ⟨path, hmem, rfl⟩
    exact hkeys ▸ hall listed hlisted
  · intro hall path hmem
    obtain ⟨listed, hlisted, hkeys⟩ := (h (keys path)).1 ⟨path, hmem, rfl⟩
    exact hkeys ▸ hall listed hlisted

/-! ## The merged record -/

/-- A value is like another one at the listed paths, and like a third one beside them. -/
structure Spliced (paths : List String) (existing update merged : Json) : Prop where
  taken : ∀ path ∈ paths, lookup? (keys path) merged = lookup? (keys path) update
  kept : ∀ p, (lookup? p existing).isSome →
    (∀ path ∈ paths, ¬ keys path <+: p ∧ ¬ p <+: keys path) →
      lookup? p merged = lookup? p existing

variable {k : Kind} {existing update merged : k.Record}

/-- No path that may be listed leads to the name or to something that it is a part of. -/
theorem Listable.beside_name
    (h : Listable ((Resource.codec : Codec k.Record).encode update) (keys path)) :
    ¬ keys path <+: ["name"] ∧ ¬ ["name"] <+: keys path := by
  constructor
  · intro hprefix
    rcases List.prefix_cons_iff.1 hprefix with hnil | ⟨q, hkeys, hq⟩
    · exact keys_ne_nil path hnil
    · rw [List.prefix_nil.1 hq] at hkeys
      exact h.unnamed hkeys
  · rintro ⟨q, hq⟩
    have hthere := h.there
    rw [← hq, Json.lookup?_append, k.lookup?_name update] at hthere
    cases q with
    | nil => exact h.unnamed hq.symm
    | cons key q => cases hthere

/-- A record that is read when the listed paths have been copied has them from the update and
everything beside them from the existing one. -/
theorem spliced_of_decode
    (hlist : ∀ path ∈ paths, Listable ((Resource.codec : Codec k.Record).encode update) (keys path))
    (hread : (Resource.codec : Codec k.Record).decode (paths.foldl
      (copyPath ((Resource.codec : Codec k.Record).encode update))
      ((Resource.codec : Codec k.Record).encode existing)) = some merged) :
    Spliced paths ((Resource.codec : Codec k.Record).encode existing)
      ((Resource.codec : Codec k.Record).encode update)
      ((Resource.codec : Codec k.Record).encode merged) where
  taken path hmem := by
    have hthere := (hlist path hmem).there
    have hcopied := lookup?_foldl_copyPath_of_mem (k.codec_transparent.neat update) hmem hthere
      ((Resource.codec : Codec k.Record).encode existing)
    exact k.codec_transparent.shows hread (keys path) update hthere hcopied
  kept p hthere haside := by
    exact k.codec_transparent.shows hread p existing hthere (lookup?_foldl_copyPath_of_aside haside)

/-- The record has the name of the existing one, since that is beside the listed paths. -/
theorem name_of_decode
    (hlist : ∀ path ∈ paths, Listable ((Resource.codec : Codec k.Record).encode update) (keys path))
    (hread : (Resource.codec : Codec k.Record).decode (paths.foldl
      (copyPath ((Resource.codec : Codec k.Record).encode update))
      ((Resource.codec : Codec k.Record).encode existing)) = some merged) :
    Resource.name merged = Resource.name existing := by
  have hname := (spliced_of_decode hlist hread).kept ["name"]
  rw [k.lookup?_name, k.lookup?_name] at hname
  have hsame := hname rfl fun path hmem => (hlist path hmem).beside_name
  exact Json.str.inj (Option.some.inj hsame)

/-- A selective mask gives the record that is read when the listed paths have been copied, if all of
them may be listed. -/
theorem merge_eq_ok_iff (hmask : mask.isFullReplace = false) :
    merge existing update (some mask) = .ok merged ↔
      (∀ path ∈ mask.paths,
        Listable ((Resource.codec : Codec k.Record).encode update) (keys path)) ∧
      (Resource.codec : Codec k.Record).decode (mask.paths.foldl
        (copyPath ((Resource.codec : Codec k.Record).encode update))
        ((Resource.codec : Codec k.Record).encode existing)) = some merged := by
  have hselective : selective? (some mask) = some mask := by
    simp [selective?, hmask]
  rw [merge, hselective, Check.bind_eq_ok_iff]
  simp only [check_eq_ok_iff (k.lookup?_wildcard update) hmask]
  constructor
  · rintro ⟨⟨⟩, hlist, h⟩
    split at h
    · rename_i read hread
      have hname := name_of_decode hlist hread
      rw [← hname, k.rename_name] at h
      rw [← Except.ok.inj h]
      exact ⟨hlist, hread⟩
    · cases h
  · rintro ⟨hlist, hread⟩
    refine ⟨(), hlist, ?_⟩
    rw [hread, ← name_of_decode hlist hread]
    exact congrArg Except.ok (k.rename_name merged)

/-- It is refused for what the merged record would be if nothing can be read then. -/
theorem merge_eq_mergeUnfit_iff (hmask : mask.isFullReplace = false) :
    merge existing update (some mask) = .error .mergeUnfit ↔
      (∀ path ∈ mask.paths,
        Listable ((Resource.codec : Codec k.Record).encode update) (keys path)) ∧
      (Resource.codec : Codec k.Record).decode (mask.paths.foldl
        (copyPath ((Resource.codec : Codec k.Record).encode update))
        ((Resource.codec : Codec k.Record).encode existing)) = none := by
  have hselective : selective? (some mask) = some mask := by
    simp [selective?, hmask]
  rw [merge, hselective, ← check_eq_ok_iff (k.lookup?_wildcard update) hmask]
  simp only
  cases hcheck : mask.check ((Resource.codec : Codec k.Record).encode update) with
  | error rejection =>
    have hne : rejection ≠ .mergeUnfit := by
      rintro rfl
      rw [check, hmask, if_neg Bool.false_ne_true] at hcheck
      exact checkPaths_ne_mergeUnfit hcheck
    constructor
    · intro h
      exact absurd (Except.error.inj h) hne
    · rintro ⟨h, -⟩
      cases h
  | ok done =>
    simp only [true_and]
    constructor
    · intro h
      cases hread : (Resource.codec : Codec k.Record).decode (mask.paths.foldl
          (copyPath ((Resource.codec : Codec k.Record).encode update))
          ((Resource.codec : Codec k.Record).encode existing)) with
      | none => rfl
      | some read =>
        rw [hread] at h
        cases h
    · intro hread
      rw [hread]
      rfl

/-- Under masks that list the same paths the same is read. -/
theorem SamePaths.foldl_copyPath_eq (h : mask.SamePaths other) (hneat : source.Neat)
    (target : Json) :
    other.paths.foldl (copyPath source) target = mask.paths.foldl (copyPath source) target :=
  foldl_copyPath_congr hneat (fun path hmem => (h (keys path)).2 ⟨path, hmem, rfl⟩)
    (fun path hmem => (h (keys path)).1 ⟨path, hmem, rfl⟩) target

/-- A selective mask whose merge gives a record holds paths of the update other than the name. The
record has the name of the existing one, and it is written like the update at the listed paths and
like the existing record beside them. So a mask that lists the same paths in another order or spelling
gives the same record, and a record that is merged with itself stays as it is. -/
theorem merge_selective (k : Kind) (existing update : k.Record) {mask : FieldMask}
    (hmask : mask.isFullReplace = false) :
    (∀ merged, merge existing update (some mask) = .ok merged →
      (∀ path ∈ mask.paths, keys path ≠ ["name"] ∧
        (lookup? (keys path) ((Resource.codec : Codec k.Record).encode update)).isSome) ∧
      Resource.name merged = Resource.name existing ∧
      Spliced mask.paths ((Resource.codec : Codec k.Record).encode existing)
        ((Resource.codec : Codec k.Record).encode update)
        ((Resource.codec : Codec k.Record).encode merged)) ∧
    (∀ other : FieldMask, other.isFullReplace = false → mask.SamePaths other →
      (∀ merged, merge existing update (some other) = .ok merged ↔
        merge existing update (some mask) = .ok merged) ∧
      (merge existing update (some other) = .error .mergeUnfit ↔
        merge existing update (some mask) = .error .mergeUnfit)) ∧
    (mask.check ((Resource.codec : Codec k.Record).encode existing) = .ok () →
      merge existing existing (some mask) = .ok existing) := by
  refine ⟨fun merged h => ?_, fun other hother hsame => ?_, fun hcheck => ?_⟩
  · obtain ⟨hlist, hread⟩ := (merge_eq_ok_iff hmask).1 h
    refine ⟨fun path hmem => ?_, name_of_decode hlist hread, spliced_of_decode hlist hread⟩
    exact ⟨(hlist path hmem).unnamed, (hlist path hmem).there⟩
  · have hneat := k.codec_transparent.neat update
    have hlist := hsame.forall_iff (Listable ((Resource.codec : Codec k.Record).encode update))
    constructor
    · intro merged
      rw [merge_eq_ok_iff hother, merge_eq_ok_iff hmask, hsame.foldl_copyPath_eq hneat, hlist]
    · rw [merge_eq_mergeUnfit_iff hother, merge_eq_mergeUnfit_iff hmask,
        hsame.foldl_copyPath_eq hneat, hlist]
  · rw [merge_eq_ok_iff hmask, foldl_copyPath_self (k.codec_transparent.neat existing)]
    constructor
    · exact (check_eq_ok_iff (k.lookup?_wildcard existing) hmask).1 hcheck
    · exact k.codec_transparent.lawful existing

/-- A subsystem, and an update of it under another name, in which only the serial number is listed:
the serial number is changed, and the name and the model number stay. -/
theorem merge_selective_serialNumber :
    let existing : Subsystem :=
      { name := "//storage.bridge.dev/subsystems/s1", spec := { nqn := "nqn1", modelNumber := "M1" } }
    let update : Subsystem :=
      { name := "other", spec := { nqn := "nqn2", serialNumber := "SN2", modelNumber := "M2" } }
    let merged : Subsystem := { existing with spec.serialNumber := "SN2" }
    let mask : FieldMask := ⟨["spec.serial_number"]⟩
    mask.isFullReplace = false ∧ merge existing update (some mask) = .ok merged ∧
      Spliced mask.paths (Subsystem.codec.encode existing) (Subsystem.codec.encode update)
        (Subsystem.codec.encode merged) ∧
      merge existing update (some ⟨["spec.serialNumber", "spec.serial_number"]⟩) = .ok merged ∧
      merge existing existing (some mask) = .ok existing := by
  intro existing update merged mask
  have hmask : mask.isFullReplace = false := by decide +kernel
  have hmerge : merge existing update (some mask) = .ok merged := by decide +kernel
  have hcheck : mask.check (Subsystem.codec.encode existing) = .ok () := by decide +kernel
  have hkeys : keys "spec.serial_number" = ["spec", "serialNumber"] := by decide +kernel
  have hkeys' : keys "spec.serialNumber" = ["spec", "serialNumber"] := by decide +kernel
  have hsame : mask.SamePaths ⟨["spec.serialNumber", "spec.serial_number"]⟩ := by
    intro ks
    simp [mask, hkeys, hkeys']
  obtain ⟨hmerged, hother, hself⟩ := merge_selective .subsystem existing update hmask
  obtain ⟨-, -, hspliced⟩ := hmerged merged hmerge
  exact ⟨hmask, hmerge, hspliced, ((hother _ (by decide +kernel) hsame).1 merged).2 hmerge,
    hself hcheck⟩

end FieldMask

end StorageControl
