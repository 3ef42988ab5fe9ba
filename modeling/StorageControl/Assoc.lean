/-
# Entries in the order of their keys

Records, listings and the objects of the wire format are kept as entries with increasing keys.
Keys are texts, ordered by code point, which is also the order of their UTF-8 bytes. This module
holds the operations on such lists of entries; `Table` packs them with their order.
-/

namespace StorageControl.Assoc

variable {α : Type}

/-! ## Operations -/

/-- The value of the first entry with the key `k`. -/
def find? (k : String) : List (String × α) → Option α
  | [] => none
  | (key, value) :: rest => if key = k then some value else find? k rest

/-- Puts an entry at its place, in place of the one with the same key. -/
def insert (k : String) (v : α) : List (String × α) → List (String × α)
  | [] => [(k, v)]
  | (key, value) :: rest =>
    if k < key then (k, v) :: (key, value) :: rest
    else if k = key then (k, v) :: rest
    else (key, value) :: insert k v rest

/-- Takes out the first entry with the key `k`. -/
def erase (k : String) : List (String × α) → List (String × α)
  | [] => []
  | (key, value) :: rest => if key = k then rest else (key, value) :: erase k rest

/-- Puts entries in one after another: of two with the same key the later one stays. -/
def ofList (entries : List (String × α)) : List (String × α) :=
  entries.foldl (fun done e => insert e.1 e.2 done) []

/-- The keys stand in increasing order. -/
def Ordered (entries : List (String × α)) : Prop :=
  entries.Pairwise (fun a b => a.1 < b.1)

/-! ## Equations -/

@[simp] theorem find?_nil (k : String) : find? k ([] : List (String × α)) = none := rfl

theorem find?_cons (k key : String) (value : α) (rest : List (String × α)) :
    find? k ((key, value) :: rest) = if key = k then some value else find? k rest := rfl

@[simp] theorem insert_nil (k : String) (v : α) : insert k v [] = [(k, v)] := rfl

theorem insert_cons (k key : String) (v value : α) (rest : List (String × α)) :
    insert k v ((key, value) :: rest) =
      if k < key then (k, v) :: (key, value) :: rest
      else if k = key then (k, v) :: rest
      else (key, value) :: insert k v rest := rfl

@[simp] theorem erase_nil (k : String) : erase k ([] : List (String × α)) = [] := rfl

theorem erase_cons (k key : String) (value : α) (rest : List (String × α)) :
    erase k ((key, value) :: rest) = if key = k then rest else (key, value) :: erase k rest := rfl

/-! ## The order of keys -/

/-- Of two keys one comes first, or they are the same. -/
theorem key_trichotomy (a b : String) : a < b ∨ a = b ∨ b < a := by
  by_cases h : a < b
  · exact .inl h
  · by_cases h' : b < a
    · exact .inr (.inr h')
    · exact .inr (.inl (String.le_antisymm (String.not_lt.1 h') (String.not_lt.1 h)))

/-! ## What an insertion does -/

/-- After an insertion the key has the new value. -/
@[simp] theorem find?_insert_self (k : String) (v : α) (l : List (String × α)) :
    find? k (insert k v l) = some v := by
  induction l with
  | nil => simp [find?_cons]
  | cons e rest ih =>
    obtain ⟨key, value⟩ := e
    by_cases h : k < key
    · simp [insert_cons, h, find?_cons]
    · by_cases hk : k = key
      · simp [insert_cons, hk, find?_cons]
      · have : ¬ key = k := fun e => hk e.symm
        simp [insert_cons, h, hk, find?_cons, this, ih]

/-- An insertion leaves the other keys alone. -/
theorem find?_insert_of_ne {k j : String} (hne : j ≠ k) (v : α) (l : List (String × α)) :
    find? j (insert k v l) = find? j l := by
  induction l with
  | nil => simp [find?_cons, hne.symm]
  | cons e rest ih =>
    obtain ⟨key, value⟩ := e
    by_cases h : k < key
    · simp [insert_cons, h, find?_cons, hne.symm]
    · by_cases hk : k = key
      · subst hk
        simp [insert_cons, find?_cons, hne.symm]
      · simp [insert_cons, h, hk, find?_cons, ih]

/-- The value of any key after an insertion. -/
theorem find?_insert (k j : String) (v : α) (l : List (String × α)) :
    find? j (insert k v l) = if j = k then some v else find? j l := by
  by_cases h : j = k
  · simp [h]
  · simp [h, find?_insert_of_ne h]

/-- Every entry after an insertion is the new one or was there before. -/
theorem mem_insert {k : String} {v : α} {l : List (String × α)} {e : String × α}
    (h : e ∈ insert k v l) : e = (k, v) ∨ e ∈ l := by
  induction l with
  | nil => simpa using h
  | cons d rest ih =>
    obtain ⟨key, value⟩ := d
    rw [insert_cons] at h
    split at h
    · simpa using h
    · split at h
      · simp only [List.mem_cons] at h ⊢
        rcases h with h | h
        · exact .inl h
        · exact .inr (.inr h)
      · simp only [List.mem_cons] at h ⊢
        rcases h with h | h
        · exact .inr (.inl h)
        · rcases ih h with h | h
          · exact .inl h
          · exact .inr (.inr h)

/-- An insertion keeps the entries in order. -/
theorem Ordered.insert {l : List (String × α)} (h : Ordered l) (k : String) (v : α) :
    Ordered (insert k v l) := by
  induction l with
  | nil => simp [Ordered]
  | cons d rest ih =>
    obtain ⟨key, value⟩ := d
    unfold Ordered at h
    rw [List.pairwise_cons] at h
    obtain ⟨hhead, htail⟩ := h
    rw [insert_cons]
    split
    · rename_i hlt
      unfold Ordered
      refine List.pairwise_cons.2 ⟨?_, List.pairwise_cons.2 ⟨hhead, htail⟩⟩
      intro e he
      rcases List.mem_cons.1 he with rfl | he
      · exact hlt
      · exact String.lt_trans hlt (hhead e he)
    · split
      · rename_i _ heq
        subst heq
        exact List.pairwise_cons.2 ⟨hhead, htail⟩
      · rename_i hnlt hne
        refine List.pairwise_cons.2 ⟨?_, ih htail⟩
        intro e he
        rcases mem_insert he with rfl | he
        · rcases key_trichotomy key k with h | h | h
          · exact h
          · exact absurd h.symm hne
          · exact absurd h hnlt
        · exact hhead e he

/-! ## What an erasure does -/

/-- Erasing a key that was just put in gives back the entries before. -/
theorem erase_insert {k : String} {l : List (String × α)} (h : find? k l = none) (v : α) :
    erase k (insert k v l) = l := by
  induction l with
  | nil => simp [erase_cons]
  | cons d rest ih =>
    obtain ⟨key, value⟩ := d
    by_cases hk : key = k
    · simp [find?_cons, hk] at h
    · have hrest : find? k rest = none := by simpa [find?_cons, hk] using h
      have hk' : ¬ k = key := fun e => hk e.symm
      by_cases hlt : k < key
      · simp [insert_cons, hlt, erase_cons]
      · simp [insert_cons, hlt, hk', erase_cons, hk, ih hrest]

/-- What is left after an erasure was there before. -/
theorem mem_of_mem_erase {k : String} {l : List (String × α)} {e : String × α}
    (h : e ∈ erase k l) : e ∈ l := by
  induction l with
  | nil => simp at h
  | cons d rest ih =>
    obtain ⟨key, value⟩ := d
    rw [erase_cons] at h
    split at h
    · exact List.mem_cons.2 (.inr h)
    · rcases List.mem_cons.1 h with h | h
      · exact List.mem_cons.2 (.inl h)
      · exact List.mem_cons.2 (.inr (ih h))

/-- An erasure keeps the entries in order. -/
theorem Ordered.erase {l : List (String × α)} (h : Ordered l) (k : String) :
    Ordered (erase k l) := by
  induction l with
  | nil => simp [Ordered]
  | cons d rest ih =>
    obtain ⟨key, value⟩ := d
    unfold Ordered at h
    rw [List.pairwise_cons] at h
    rw [erase_cons]
    split
    · exact h.2
    · exact List.pairwise_cons.2 ⟨fun e he => h.1 e (mem_of_mem_erase he), ih h.2⟩

/-- An erasure leaves the other keys alone. -/
theorem find?_erase_of_ne {k j : String} (hne : j ≠ k) (l : List (String × α)) :
    find? j (erase k l) = find? j l := by
  induction l with
  | nil => rfl
  | cons d rest ih =>
    obtain ⟨key, value⟩ := d
    by_cases hk : key = k
    · simp [erase_cons, hk, find?_cons, hne.symm]
    · simp [erase_cons, hk, find?_cons, ih]

/-- A key below all others has no entry. -/
theorem find?_eq_none_of_lt {k : String} {l : List (String × α)} (h : ∀ e ∈ l, k < e.1) :
    find? k l = none := by
  induction l with
  | nil => rfl
  | cons d rest ih =>
    obtain ⟨key, value⟩ := d
    have hk : ¬ key = k := by
      intro e
      have := h (key, value) (by simp)
      simp only at this
      exact String.lt_irrefl k (e ▸ this)
    simp [find?_cons, hk, ih (fun e he => h e (by simp [he]))]

/-- An erased key has no entry. -/
theorem find?_erase_self {k : String} {l : List (String × α)} (h : Ordered l) :
    find? k (erase k l) = none := by
  induction l with
  | nil => rfl
  | cons d rest ih =>
    obtain ⟨key, value⟩ := d
    unfold Ordered at h
    rw [List.pairwise_cons] at h
    by_cases hk : key = k
    · subst hk
      simp [erase_cons, find?_eq_none_of_lt h.1]
    · simp [erase_cons, hk, find?_cons, ih h.2]

/-! ## Entries in order are determined by what is found in them -/

/-- Two lists of entries in order in which the same is found are equal. -/
theorem Ordered.ext {l m : List (String × α)} (hl : Ordered l) (hm : Ordered m)
    (h : ∀ k, find? k l = find? k m) : l = m := by
  induction l generalizing m with
  | nil =>
    cases m with
    | nil => rfl
    | cons d rest =>
      obtain ⟨key, value⟩ := d
      simpa [find?_cons] using h key
  | cons d rest ih =>
    obtain ⟨key, value⟩ := d
    cases m with
    | nil => simpa [find?_cons] using h key
    | cons d' rest' =>
      obtain ⟨key', value'⟩ := d'
      unfold Ordered at hl hm
      rw [List.pairwise_cons] at hl hm
      have hkeys : key = key' := by
        rcases key_trichotomy key key' with hlt | heq | hgt
        · have h1 := h key
          have : ¬ key' = key := fun e => String.lt_irrefl key (e ▸ hlt)
          rw [find?_eq_none_of_lt
            (l := (key', value') :: rest') (fun e he => by
              rcases List.mem_cons.1 he with rfl | he
              · exact hlt
              · exact String.lt_trans hlt (hm.1 e he))] at h1
          simp [find?_cons] at h1
        · exact heq
        · have h1 := h key'
          rw [find?_eq_none_of_lt
            (l := (key, value) :: rest) (fun e he => by
              rcases List.mem_cons.1 he with rfl | he
              · exact hgt
              · exact String.lt_trans hgt (hl.1 e he))] at h1
          simp [find?_cons] at h1
      subst hkeys
      have hv : value = value' := by simpa [find?_cons] using h key
      subst hv
      congr 1
      apply ih hl.2 hm.2
      intro k
      by_cases hk : key = k
      · subst hk
        rw [find?_eq_none_of_lt hl.1, find?_eq_none_of_lt hm.1]
      · simpa [find?_cons, hk] using h k

end StorageControl.Assoc
