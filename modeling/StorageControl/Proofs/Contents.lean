/-
# What a table holds

The entries of a table as a multiset, in which their order does not matter. Putting a value under a
new key adds an entry, and taking a key out removes one.
-/
import StorageControl.Table
import Mathlib.Data.Multiset.Filter
import Mathlib.Data.Multiset.MapFold
import Mathlib.Data.Multiset.UnionInter

namespace StorageControl

variable {α : Type}

/-! ## Entries -/

theorem Assoc.mem_of_find? {k : String} {v : α} {l : List (String × α)}
    (h : find? k l = some v) : (k, v) ∈ l := by
  induction l with
  | nil => cases h
  | cons d rest ih =>
    obtain ⟨key, value⟩ := d
    rw [find?_cons] at h
    split at h
    · rename_i hk
      cases h
      rw [hk]
      exact List.mem_cons_self
    · exact List.mem_cons_of_mem _ (ih h)

theorem Assoc.Ordered.find?_of_mem {k : String} {v : α} {l : List (String × α)} (h : Ordered l)
    (hmem : (k, v) ∈ l) : find? k l = some v := by
  induction l with
  | nil => cases hmem
  | cons d rest ih =>
    obtain ⟨key, value⟩ := d
    obtain ⟨hhead, htail⟩ := List.pairwise_cons.1 h
    rcases List.mem_cons.1 hmem with heq | hmem
    · cases heq
      simp [find?_cons]
    · have hne : key ≠ k := by
        rintro rfl
        exact String.lt_irrefl _ (hhead (_, v) hmem)
      simp [find?_cons, hne, ih htail hmem]

/-- Entries in order are different. -/
theorem Assoc.Ordered.nodup {l : List (String × α)} (h : Ordered l) : l.Nodup := by
  refine List.Pairwise.imp ?_ h
  rintro a b hlt rfl
  exact String.lt_irrefl _ hlt

namespace Table

/-- The entries of a table. -/
def contents (t : Table α) : Multiset (String × α) :=
  ↑t.entries

theorem mem_contents {t : Table α} {k : String} {v : α} :
    (k, v) ∈ t.contents ↔ t.find? k = some v :=
  ⟨t.ordered.find?_of_mem, Assoc.mem_of_find?⟩

/-- What is found is one of the values. -/
theorem mem_values_of_find? {t : Table α} {k : String} {v : α} (h : t.find? k = some v) :
    v ∈ t.values :=
  List.mem_map.2 ⟨(k, v), Assoc.mem_of_find? h, rfl⟩

/-- A key under which something is found is one of the keys. -/
theorem mem_keys_of_find? {t : Table α} {k : String} {v : α} (h : t.find? k = some v) :
    k ∈ t.keys :=
  List.mem_map.2 ⟨(k, v), Assoc.mem_of_find? h, rfl⟩

/-- A value is found under some key. -/
theorem exists_find?_of_mem_values {t : Table α} {v : α} (h : v ∈ t.values) :
    ∃ k, t.find? k = some v := by
  obtain ⟨⟨k, v⟩, hmem, rfl⟩ := List.mem_map.1 h
  exact ⟨k, t.ordered.find?_of_mem hmem⟩

theorem nodup_contents (t : Table α) : t.contents.Nodup :=
  Multiset.coe_nodup.2 t.ordered.nodup

/-- A value under a new key is one entry more. -/
theorem contents_insert {t : Table α} {k : String} (h : t.find? k = none) (v : α) :
    (t.insert k v).contents = (k, v) ::ₘ t.contents := by
  have hnew : (k, v) ∉ t.contents := by
    rw [mem_contents, h]
    simp
  rw [Multiset.Nodup.ext (nodup_contents _) (Multiset.nodup_cons.2 ⟨hnew, nodup_contents _⟩)]
  rintro ⟨j, u⟩
  rw [Multiset.mem_cons, mem_contents, mem_contents, find?_insert]
  by_cases hj : j = k
  · simp [hj, h, eq_comm]
  · simp [hj]

/-- A key that is there is one entry more than when it is taken out. -/
theorem contents_eq_cons_erase {t : Table α} {k : String} {v : α} (h : t.find? k = some v) :
    t.contents = (k, v) ::ₘ (t.erase k).contents := by
  rw [← contents_insert (t.find?_erase_self k)]
  congr 1
  ext j : 1
  rw [find?_insert]
  split
  · rename_i hj
    rw [hj, h]
  · rename_i hj
    rw [find?_erase_of_ne _ hj]

/-- Putting a value under a key replaces the entry of the key, if there is one. -/
theorem contents_insert_eq_cons_erase (t : Table α) (k : String) (v : α) :
    (t.insert k v).contents = (k, v) ::ₘ (t.erase k).contents := by
  rw [← contents_insert (t.find?_erase_self k)]
  congr 1
  ext j : 1
  simp only [find?_insert, find?_erase]
  split <;> rfl

end Table

end StorageControl
