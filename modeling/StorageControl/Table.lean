/-
# Tables

A table holds at most one value per key, in the order of the keys. Because the order is part of
the type, two tables in which the same is found are the same table.
-/
import StorageControl.Assoc

namespace StorageControl

/-- Values under text keys, in the order of the keys. -/
structure Table (α : Type) where
  entries : List (String × α) := []
  ordered : Assoc.Ordered entries := by exact List.Pairwise.nil

namespace Table

variable {α : Type}

/-! ## Operations -/

/-- The table without entries. -/
def empty : Table α := {}

instance : Inhabited (Table α) := ⟨empty⟩

/-- The value under a key. -/
def find? (t : Table α) (k : String) : Option α :=
  Assoc.find? k t.entries

/-- Puts a value under a key, in place of the one there. -/
def insert (t : Table α) (k : String) (v : α) : Table α :=
  ⟨Assoc.insert k v t.entries, t.ordered.insert k v⟩

/-- Takes a key out. -/
def erase (t : Table α) (k : String) : Table α :=
  ⟨Assoc.erase k t.entries, t.ordered.erase k⟩

/-- The values, in the order of their keys. -/
def values (t : Table α) : List α :=
  t.entries.map (·.2)

/-- The keys, in order. -/
def keys (t : Table α) : List String :=
  t.entries.map (·.1)

/-- There is a value under the key. -/
def contains (t : Table α) (k : String) : Bool :=
  (t.find? k).isSome

/-- How many entries there are. -/
def size (t : Table α) : Nat :=
  t.entries.length

/-! ## What is found -/

/-- Nothing is found in the empty table. -/
@[simp] theorem find?_empty (k : String) : (empty : Table α).find? k = none := rfl

/-- A value put in is found. -/
@[simp] theorem find?_insert_self (t : Table α) (k : String) (v : α) :
    (t.insert k v).find? k = some v :=
  Assoc.find?_insert_self k v t.entries

/-- Putting a value in leaves the other keys alone. -/
theorem find?_insert_of_ne (t : Table α) {k j : String} (h : j ≠ k) (v : α) :
    (t.insert k v).find? j = t.find? j :=
  Assoc.find?_insert_of_ne h v t.entries

/-- A key taken out is not found. -/
@[simp] theorem find?_erase_self (t : Table α) (k : String) : (t.erase k).find? k = none :=
  Assoc.find?_erase_self t.ordered

/-- Taking a key out leaves the other keys alone. -/
theorem find?_erase_of_ne (t : Table α) {k j : String} (h : j ≠ k) :
    (t.erase k).find? j = t.find? j :=
  Assoc.find?_erase_of_ne h t.entries

/-- What is found when a value has been put in. -/
theorem find?_insert (t : Table α) (k j : String) (v : α) :
    (t.insert k v).find? j = if j = k then some v else t.find? j :=
  Assoc.find?_insert k j v t.entries

/-- What is found when a key has been taken out. -/
theorem find?_erase (t : Table α) (k j : String) :
    (t.erase k).find? j = if j = k then none else t.find? j := by
  split
  · rename_i h
    rw [h, find?_erase_self]
  · rename_i h
    exact find?_erase_of_ne t h

/-- Tables in which the same is found are equal. -/
@[ext] theorem ext {t u : Table α} (h : ∀ k, t.find? k = u.find? k) : t = u := by
  obtain ⟨l, hl⟩ := t
  obtain ⟨m, hm⟩ := u
  have : l = m := Assoc.Ordered.ext hl hm h
  subst this
  rfl

/-- Putting a new key in and taking it out again gives the table back. -/
theorem erase_insert {t : Table α} {k : String} (h : t.find? k = none) (v : α) :
    (t.insert k v).erase k = t := by
  apply ext
  intro j
  by_cases hj : j = k
  · subst hj
    rw [find?_erase_self, h]
  · rw [find?_erase_of_ne _ hj, find?_insert_of_ne _ hj]

/-- Putting in what is there changes nothing. -/
theorem insert_eq_self {t : Table α} {k : String} {v : α} (h : t.find? k = some v) :
    t.insert k v = t := by
  apply ext
  intro j
  rw [find?_insert]
  split
  · rename_i hj
    rw [hj, h]
  · rfl

/-- Of two values under one key the later one stays. -/
theorem insert_insert (t : Table α) (k : String) (v w : α) :
    (t.insert k v).insert k w = t.insert k w := by
  apply ext
  intro j
  simp only [find?_insert]
  split <;> rfl

/-- Two values under different keys can be put in in either order. -/
theorem insert_comm (t : Table α) {j k : String} (h : j ≠ k) (v w : α) :
    (t.insert j v).insert k w = (t.insert k w).insert j v := by
  apply ext
  intro i
  by_cases hk : i = k
  · subst hk
    rw [find?_insert_self, find?_insert_of_ne _ h.symm, find?_insert_self]
  · by_cases hj : i = j
    · subst hj
      rw [find?_insert_of_ne _ hk, find?_insert_self, find?_insert_self]
    · rw [find?_insert_of_ne _ hk, find?_insert_of_ne _ hj, find?_insert_of_ne _ hj,
        find?_insert_of_ne _ hk]

end Table

end StorageControl
