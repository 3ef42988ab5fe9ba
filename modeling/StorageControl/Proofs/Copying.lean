/-
# Paths are copied in any order

A masked update copies the values at the listed paths from one value into another. Since they all
come from the same value, it does not matter in which order this is done, how often, or how a path is
spelled: a path that is a part of another one gives the same with it as without it, and paths that lie
beside each other do not touch what the other one copies.
-/
import Mathlib.Data.List.Basic
import StorageControl.Proofs.Merge

namespace StorageControl

/-! ## Entries -/

namespace Assoc

variable {α : Type}

/-- Of two insertions under one key the later one counts. -/
theorem insert_insert (k : String) (a b : α) (l : List (String × α)) :
    insert k a (insert k b l) = insert k a l := by
  induction l with
  | nil => simp [insert_cons]
  | cons e rest ih =>
    obtain ⟨key, value⟩ := e
    rcases key_trichotomy k key with hlt | rfl | hgt
    · simp [insert_cons, hlt]
    · simp [insert_cons]
    · have hnlt : ¬ k < key := String.lt_asymm hgt
      have hne : k ≠ key := by
        rintro rfl
        exact String.lt_irrefl k hgt
      simp [insert_cons, hnlt, hne, ih]

/-- Insertions under different keys can be made in either order. -/
theorem insert_comm {k j : String} (hlt : j < k) (a b : α) (l : List (String × α)) :
    insert k a (insert j b l) = insert j b (insert k a l) := by
  have hnkj : ¬ k < j := String.lt_asymm hlt
  have hkj : k ≠ j := by
    rintro rfl
    exact String.lt_irrefl k hlt
  induction l with
  | nil => simp [insert_cons, hlt, hnkj, hkj]
  | cons e rest ih =>
    obtain ⟨key, value⟩ := e
    rcases key_trichotomy j key with hj | rfl | hj
    · -- The entry for `j` comes first, and the one for `k` behind it.
      by_cases hk : k < key
      · simp [insert_cons, hj, hk, hlt, hnkj, hkj]
      · by_cases hk' : k = key
        · subst hk'
          simp [insert_cons, hj, hnkj, hkj]
        · simp [insert_cons, hj, hk, hk', hnkj, hkj]
    · simp [insert_cons, hnkj, hkj]
    · have hk : key < k := String.lt_trans hj hlt
      have hnj : ¬ j < key := String.lt_asymm hj
      have hnk : ¬ k < key := String.lt_asymm hk
      have hj' : j ≠ key := by
        rintro rfl
        exact String.lt_irrefl j hj
      have hk' : k ≠ key := by
        rintro rfl
        exact String.lt_irrefl k hk
      simp [insert_cons, hnj, hnk, hj', hk', ih]

theorem insert_comm_of_ne {k j : String} (h : k ≠ j) (a b : α) (l : List (String × α)) :
    insert k a (insert j b l) = insert j b (insert k a l) := by
  rcases key_trichotomy j k with hlt | rfl | hgt
  · exact insert_comm hlt a b l
  · exact absurd rfl h
  · exact (insert_comm hgt b a l).symm

/-- Putting in what is found changes nothing. -/
theorem Ordered.insert_eq_self {k : String} {v : α} {l : List (String × α)} (h : Ordered l)
    (hfind : find? k l = some v) : Assoc.insert k v l = l := by
  refine (h.insert k v).ext h fun j => ?_
  rw [find?_insert]
  split
  · rename_i hj
    rw [hj, hfind]
  · rfl

end Assoc

/-! ## Assignments -/

namespace Json

/-- The members of every object in a value stand in the order of their keys. -/
def Neat (v : Json) : Prop :=
  ∀ p members, lookup? p v = some (.obj members) → Assoc.Ordered members

/-- What stands in a neat value is neat. -/
theorem Neat.of_lookup? {v w : Json} {p : List String} (h : v.Neat) (hw : lookup? p v = some w) :
    w.Neat := by
  intro q members hq
  refine h (p ++ q) members ?_
  rw [lookup?_append, hw]
  exact hq

/-- Where a path starts there is an object with its first key. -/
theorem exists_of_lookup?_cons {key : String} {p : List String} {v w : Json}
    (h : lookup? (key :: p) v = some w) :
    ∃ members u, v = .obj members ∧ Assoc.find? key members = some u ∧ lookup? p u = some w := by
  obtain ⟨u, hu, hw⟩ := Option.bind_eq_some_iff.1 h
  cases v with
  | obj members => exact ⟨members, u, rfl, hu, hw⟩
  | _ => cases hu

/-- Assigning what stands at a path changes nothing. -/
theorem assign_self {v w : Json} {p : List String} (h : v.Neat) (hw : lookup? p v = some w) :
    assign w p v = v := by
  induction p generalizing v with
  | nil => exact (Option.some.inj hw).symm
  | cons key p ih =>
    obtain ⟨members, u, rfl, hu, hw⟩ := exists_of_lookup?_cons hw
    have hneat : u.Neat := by
      refine h.of_lookup? (p := [key]) ?_
      simp [lookup?, member?, hu]
    have hordered : Assoc.Ordered members := h [] members rfl
    simp only [assign, member?, hu, Option.getD_some, Json.members, ih hneat hw]
    rw [hordered.insert_eq_self hu]

/-- The value at a key after an assignment below the key. -/
theorem member?_assign_self (new : Json) (key : String) (p : List String) (v : Json) :
    (assign new (key :: p) v).member? key =
      some (assign new p ((v.member? key).getD (.obj []))) := by
  rw [assign, member?_obj_insert, if_pos rfl]

/-- An assignment makes one below its path vain. -/
theorem assign_assign_append (new below : Json) (p q : List String) (v : Json) :
    assign new p (assign below (p ++ q) v) = assign new p v := by
  induction p generalizing v with
  | nil => rfl
  | cons key p ih =>
    rw [List.cons_append, assign, member?_assign_self, Option.getD_some, ih]
    rw [assign, members, Assoc.insert_insert]
    rfl

/-- An assignment below an assigned path is one in what was assigned. -/
theorem assign_append_assign (new below : Json) (p q : List String) (v : Json) :
    assign below (p ++ q) (assign new p v) = assign (assign below q new) p v := by
  induction p generalizing v with
  | nil => rfl
  | cons key p ih =>
    rw [List.cons_append, assign, member?_assign_self, Option.getD_some, ih]
    rw [assign, members, Assoc.insert_insert]
    rfl

/-- Assignments beside each other can be made in either order. -/
theorem assign_comm {p q : List String} (a b v : Json) (hp : ¬ p <+: q) (hq : ¬ q <+: p) :
    assign a p (assign b q v) = assign b q (assign a p v) := by
  induction p generalizing q v with
  | nil => exact absurd List.nil_prefix hp
  | cons k p ih =>
    cases q with
    | nil => exact absurd List.nil_prefix hq
    | cons j q =>
      by_cases hkj : k = j
      · subst hkj
        rw [List.cons_prefix_cons] at hp hq
        have hcomm := ih (q := q) ((v.member? k).getD (.obj [])) (fun h => hp ⟨rfl, h⟩)
          fun h => hq ⟨rfl, h⟩
        rw [assign, member?_assign_self, Option.getD_some, hcomm, assign, members,
          Assoc.insert_insert]
        rw [assign, member?_assign_self, Option.getD_some, assign, members, Assoc.insert_insert]
      · have hk : (assign b (j :: q) v).member? k = v.member? k := by
          rw [assign, member?_obj_insert, if_neg hkj]
        have hj : (assign a (k :: p) v).member? j = v.member? j := by
          rw [assign, member?_obj_insert, if_neg (Ne.symm hkj)]
        calc assign a (k :: p) (assign b (j :: q) v)
            = .obj (Assoc.insert k (assign a p ((v.member? k).getD (.obj [])))
                (assign b (j :: q) v).members) := by rw [assign, hk]
          _ = .obj (Assoc.insert j (assign b q ((v.member? j).getD (.obj [])))
                (assign a (k :: p) v).members) := by
              simp only [assign, members]
              rw [Assoc.insert_comm_of_ne hkj]
          _ = assign b (j :: q) (assign a (k :: p) v) := by
              rw [← hj]
              rfl

end Json

/-! ## Copies -/

namespace FieldMask

open Json (lookup?)

variable {source target : Json} {path other : String} {paths paths' : List String}

theorem copyPath_of_lookup? {v : Json} (h : lookup? (keys path) source = some v) (target : Json) :
    copyPath source target path = Json.assign v (keys path) target := by
  rw [copyPath, h]

/-- The spelling of a path does not matter. -/
theorem copyPath_congr (h : keys path = keys other) :
    copyPath source target path = copyPath source target other := by
  rw [copyPath, copyPath, h]

/-- Copying a path makes the copy of one below it vain, before it as well as after it. -/
theorem copyPath_copyPath_below (hneat : source.Neat) (h : keys path <+: keys other)
    {w : Json} (hw : lookup? (keys other) source = some w) (target : Json) :
    copyPath source (copyPath source target other) path = copyPath source target path ∧
      copyPath source (copyPath source target path) other = copyPath source target path := by
  obtain ⟨q, hq⟩ := h
  rw [← hq, Json.lookup?_append] at hw
  obtain ⟨v, hv, hw'⟩ := Option.bind_eq_some_iff.1 hw
  have hother : lookup? (keys other) source = some w := by
    rw [← hq, Json.lookup?_append, hv]
    exact hw'
  simp only [copyPath_of_lookup? hv, copyPath_of_lookup? hother, ← hq]
  constructor
  · exact Json.assign_assign_append v w (keys path) q target
  · rw [Json.assign_append_assign, Json.assign_self (hneat.of_lookup? hv) hw']

/-- Paths can be copied in either order. -/
theorem copyPath_comm (hneat : source.Neat) (target : Json) (path other : String) :
    copyPath source (copyPath source target path) other =
      copyPath source (copyPath source target other) path := by
  cases hpath : lookup? (keys path) source with
  | none =>
    have hnone (target : Json) : copyPath source target path = target := by rw [copyPath, hpath]
    rw [hnone, hnone]
  | some v =>
    cases hother : lookup? (keys other) source with
    | none =>
      have hnone (target : Json) : copyPath source target other = target := by
        rw [copyPath, hother]
      rw [hnone, hnone]
    | some w =>
      by_cases hp : keys path <+: keys other
      · obtain ⟨hbefore, hafter⟩ := copyPath_copyPath_below hneat hp hother target
        rw [hbefore, hafter]
      · by_cases hq : keys other <+: keys path
        · obtain ⟨hbefore, hafter⟩ := copyPath_copyPath_below hneat hq hpath target
          rw [hbefore, hafter]
        · simp only [copyPath_of_lookup? hpath, copyPath_of_lookup? hother]
          exact Json.assign_comm w v target hq hp

/-- Copying a path once more changes nothing. -/
theorem copyPath_self (hneat : source.Neat) (target : Json) (path : String) :
    copyPath source (copyPath source target path) path = copyPath source target path := by
  cases hpath : lookup? (keys path) source with
  | none => simp only [copyPath, hpath]
  | some v => exact (copyPath_copyPath_below hneat List.prefix_rfl hpath target).1

/-- A path can be copied before the others as well as after them. -/
theorem copyPath_foldl (hneat : source.Neat) (paths : List String) (target : Json) (path : String) :
    copyPath source (paths.foldl (copyPath source) target) path =
      paths.foldl (copyPath source) (copyPath source target path) := by
  induction paths generalizing target with
  | nil => rfl
  | cons first paths ih => rw [List.foldl_cons, ih, copyPath_comm hneat, List.foldl_cons]

/-- Copying one of the paths again changes nothing when all have been copied. -/
theorem copyPath_foldl_of_mem (hneat : source.Neat) (hmem : path ∈ paths) (target : Json) :
    copyPath source (paths.foldl (copyPath source) target) path =
      paths.foldl (copyPath source) target := by
  obtain ⟨before, behind, rfl⟩ := List.append_of_mem hmem
  rw [List.foldl_append, List.foldl_cons, copyPath_foldl hneat, copyPath_self hneat]

/-- Paths that are all spellings of paths that have been copied change nothing. -/
theorem foldl_copyPath_of_subset (hneat : source.Neat)
    (h : ∀ path ∈ paths', ∃ other ∈ paths, keys other = keys path) (target : Json) :
    paths'.foldl (copyPath source) (paths.foldl (copyPath source) target) =
      paths.foldl (copyPath source) target := by
  induction paths' with
  | nil => rfl
  | cons path paths' ih =>
    obtain ⟨other, hmem, hkeys⟩ := h path List.mem_cons_self
    rw [List.foldl_cons, ← copyPath_congr hkeys, copyPath_foldl_of_mem hneat hmem]
    exact ih fun path hpath => h path (List.mem_cons_of_mem _ hpath)

/-- Two lists of paths can be copied in either order. -/
theorem foldl_copyPath_comm (hneat : source.Neat) (paths paths' : List String) (target : Json) :
    paths'.foldl (copyPath source) (paths.foldl (copyPath source) target) =
      paths.foldl (copyPath source) (paths'.foldl (copyPath source) target) := by
  induction paths' generalizing target with
  | nil => rfl
  | cons path paths' ih => rw [List.foldl_cons, copyPath_foldl hneat, ih, List.foldl_cons]

/-- What is copied depends on the set of the paths alone. -/
theorem foldl_copyPath_congr (hneat : source.Neat)
    (h : ∀ path ∈ paths, ∃ other ∈ paths', keys other = keys path)
    (h' : ∀ path ∈ paths', ∃ other ∈ paths, keys other = keys path) (target : Json) :
    paths.foldl (copyPath source) target = paths'.foldl (copyPath source) target := by
  calc paths.foldl (copyPath source) target
      = paths'.foldl (copyPath source) (paths.foldl (copyPath source) target) :=
        (foldl_copyPath_of_subset hneat h' target).symm
    _ = paths.foldl (copyPath source) (paths'.foldl (copyPath source) target) :=
        foldl_copyPath_comm hneat paths paths' target
    _ = paths'.foldl (copyPath source) target := foldl_copyPath_of_subset hneat h target

/-- A path that has been copied leads to the same as in the update. -/
theorem lookup?_foldl_copyPath_of_mem (hneat : source.Neat) (hmem : path ∈ paths)
    (hpath : (lookup? (keys path) source).isSome) (target : Json) :
    lookup? (keys path) (paths.foldl (copyPath source) target) = lookup? (keys path) source := by
  obtain ⟨v, hv⟩ := Option.isSome_iff_exists.1 hpath
  rw [← copyPath_foldl_of_mem hneat hmem, copyPath_of_lookup? hv, Json.lookup?_assign, hv]

/-- Copying paths of a value into the value itself changes nothing. -/
theorem foldl_copyPath_self (hneat : source.Neat) (paths : List String) :
    paths.foldl (copyPath source) source = source := by
  induction paths with
  | nil => rfl
  | cons path paths ih =>
    have hcopy : copyPath source source path = source := by
      cases hpath : lookup? (keys path) source with
      | none => rw [copyPath, hpath]
      | some v => rw [copyPath_of_lookup? hpath, Json.assign_self hneat hpath]
    rw [List.foldl_cons, hcopy, ih]

end FieldMask

end StorageControl
