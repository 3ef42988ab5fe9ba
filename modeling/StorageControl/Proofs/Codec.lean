/-
# Codecs read back what they write

A codec is lawful if it reads every value from its written form. The codecs of the basic types are
lawful, and codecs put together from lawful ones are lawful again. For a record this is shown field
by field, along its description.
-/
import Mathlib.Data.List.Nodup
import StorageControl.Json.Codec

namespace StorageControl

namespace Assoc

variable {α : Type}

/-! ## Entries with different keys -/

/-- A key that is the first of no entry has no value. -/
theorem find?_eq_none_of_not_mem {k : String} {l : List (String × α)} (h : k ∉ l.map (·.1)) :
    find? k l = none := by
  induction l with
  | nil => rfl
  | cons e rest ih =>
    obtain ⟨key, value⟩ := e
    simp only [List.map_cons, List.mem_cons, not_or] at h
    simp [find?, Ne.symm h.1, ih h.2]

/-- A key that is the first of some entry has a value. -/
theorem exists_find?_of_mem {k : String} {l : List (String × α)} (h : k ∈ l.map (·.1)) :
    ∃ v, find? k l = some v := by
  induction l with
  | nil => cases h
  | cons e rest ih =>
    obtain ⟨key, value⟩ := e
    by_cases hkey : key = k
    · exact ⟨value, by simp [find?, hkey]⟩
    · obtain ⟨v, hv⟩ := ih ((List.mem_cons.1 h).resolve_left (Ne.symm hkey))
      exact ⟨v, by simp [find?, hkey, hv]⟩

/-- What is found in two lists of entries is found in the first, or else in the second. -/
theorem find?_append (k : String) (l m : List (String × α)) :
    find? k (l ++ m) = (find? k l).or (find? k m) := by
  induction l with
  | nil => rfl
  | cons e rest ih =>
    obtain ⟨key, value⟩ := e
    by_cases h : key = k
    · simp [find?, h]
    · simp [find?, h, ih]

/-- Entries put in one after another are found, the later ones before the earlier ones. -/
theorem find?_foldl_insert (k : String) (l done : List (String × α)) :
    find? k (l.foldl (fun done e => insert e.1 e.2 done) done)
      = (find? k l.reverse).or (find? k done) := by
  induction l generalizing done with
  | nil => rfl
  | cons e rest ih =>
    rw [List.foldl_cons, ih, find?_insert, List.reverse_cons, find?_append]
    by_cases h : k = e.1
    · simp [find?, h]
    · simp [find?, h, Ne.symm h]

/-- Entries with different keys are found in either order. -/
theorem find?_reverse {l : List (String × α)} (h : (l.map (·.1)).Nodup) (k : String) :
    find? k l.reverse = find? k l := by
  induction l with
  | nil => rfl
  | cons e rest ih =>
    obtain ⟨key, value⟩ := e
    simp only [List.map_cons, List.nodup_cons] at h
    rw [List.reverse_cons, find?_append, ih h.2]
    by_cases hk : key = k
    · subst hk
      simp [find?, find?_eq_none_of_not_mem h.1]
    · simp [find?, hk]

/-- Entries that are put in one after another stand in the order of their keys. -/
theorem ordered_ofList (l : List (String × α)) : Ordered (ofList l) := by
  have hfold (l done : List (String × α)) (hdone : Ordered done) :
      Ordered (l.foldl (fun done e => insert e.1 e.2 done) done) := by
    induction l generalizing done with
    | nil => exact hdone
    | cons e rest ih => exact ih _ (hdone.insert e.1 e.2)
  exact hfold l [] List.Pairwise.nil

/-- Entries with different keys are found when they are put in order. -/
theorem find?_ofList {l : List (String × α)} (h : (l.map (·.1)).Nodup) (k : String) :
    find? k (ofList l) = find? k l := by
  rw [ofList, find?_foldl_insert, find?_reverse h]
  simp [find?]

end Assoc

namespace Codec

variable {α β γ ρ : Type}

/-- The codec reads every value from its written form. -/
def Lawful (c : Codec α) : Prop :=
  ∀ a, c.decode (c.encode a) = some a

/-- The codec writes no value as null. -/
def Solid (c : Codec α) : Prop :=
  ∀ a, c.encode a ≠ .null

/-! ## Basic types -/

theorem text_lawful : text.Lawful := fun _ => rfl

theorem text_solid : text.Solid := fun _ => nofun

theorem flag_lawful : flag.Lawful := fun _ => rfl

theorem flag_solid : flag.Solid := fun _ => nofun

/-- A whole number between two bounds is read. -/
theorem wholeBetween_ofInt {least greatest n : Int} (h : least ≤ n ∧ n ≤ greatest) :
    wholeBetween least greatest (.ofInt n) = some n := by
  simp [wholeBetween, Json.ofInt, h]

/-- Every number of 32 bits is between the bounds. -/
theorem int32_lawful : int32.Lawful := by
  intro n
  have h : -2147483648 ≤ n.toInt ∧ n.toInt ≤ 2147483647 :=
    ⟨n.le_toInt, by have := n.toInt_lt; omega⟩
  simp [int32, wholeBetween_ofInt h]

theorem int32_solid : int32.Solid := fun _ => nofun

theorem int64_lawful : int64.Lawful := by
  intro n
  have h : -9223372036854775808 ≤ n.toInt ∧ n.toInt ≤ 9223372036854775807 :=
    ⟨n.le_toInt, by have := n.toInt_lt; omega⟩
  simp [int64, wholeBetween_ofInt h]

theorem free_lawful : free.Lawful := fun _ => rfl

/-! ## Combined types -/

/-- A list is read value by value. -/
theorem list_lawful {c : Codec α} (h : c.Lawful) : c.list.Lawful := by
  intro l
  show (l.map c.encode).mapM c.decode = some l
  induction l with
  | nil => rfl
  | cons a l ih => simp [List.mapM_cons, h a, ih]

theorem list_solid (c : Codec α) : c.list.Solid := fun _ => nofun

theorem record_solid (p : Fields ρ ρ) : (record p).Solid := fun _ => nofun

/-- Null is told from every value that is not written as null. -/
theorem nullable_lawful {c : Codec α} (h : c.Lawful) (hs : c.Solid) : c.nullable.Lawful := by
  intro a
  cases a with
  | none => rfl
  | some a =>
    have hn := hs a
    have hd := h a
    revert hn hd
    simp only [nullable]
    cases c.encode a <;> simp_all

/-! ## Records -/

namespace Fields

/-- The keys that are described so far. -/
def keys (p : Fields ρ β) : List String :=
  p.layout.map (·.1)

@[simp] theorem keys_add (p : Fields ρ (γ → β)) (key : String) (c : Codec γ) (get : ρ → γ)
    (presence : Presence) (absent : Option γ) (silent : γ → Bool) :
    (p.add key c get presence absent silent).keys = p.keys ++ [key] := by
  simp [keys, add]

/-- What is found in a record with one more field. -/
theorem find?_encode_add (p : Fields ρ (γ → β)) (key : String) (c : Codec γ) (get : ρ → γ)
    (presence : Presence) (absent : Option γ) (silent : γ → Bool) (r : ρ) (k : String) :
    Assoc.find? k ((p.add key c get presence absent silent).encode r) =
      (Assoc.find? k (p.encode r)).or
        (if silent (get r) ∨ key ≠ k then none else some (c.encode (get r))) := by
  simp only [add, Assoc.find?_append]
  by_cases hs : silent (get r) = true
  · simp [hs]
  · by_cases hk : key = k <;> simp [hs, hk, Assoc.find?_cons]

/-- Fields are faithful if, from what is written for a record, they build what `value` says, no
matter what stands under other keys. -/
structure Faithful (p : Fields ρ β) (value : ρ → β) : Prop where
  keys_subset : ∀ r, (p.encode r).map (·.1) ⊆ p.keys
  nodup : ∀ r, ((p.encode r).map (·.1)).Nodup
  reads : ∀ r find, (∀ key ∈ p.keys, find key = Assoc.find? key (p.encode r)) →
    p.decode find = some (value r)

/-- Without fields nothing is written, and nothing is missing. -/
theorem of_faithful (make : β) : (of ρ make).Faithful fun _ => make where
  keys_subset _ := by simp [of]
  nodup _ := by simp [of]
  reads _ _ _ := rfl

/-- One more field keeps fields faithful if its key is new, its codec is lawful, and a value that is
not written is the one that is taken when nothing is there. -/
theorem add_faithful {p : Fields ρ (γ → β)} {value : ρ → γ → β} (h : p.Faithful value)
    {key : String} (hkey : key ∉ p.keys) {c : Codec γ} (hc : c.Lawful) (get : ρ → γ)
    (presence : Presence) {absent : Option γ} {silent : γ → Bool}
    (hsilent : ∀ v, silent v = true → absent = some v) :
    (p.add key c get presence absent silent).Faithful fun r => value r (get r) where
  keys_subset r := by
    rw [keys_add]
    simp only [add, List.map_append]
    refine List.append_subset.2 ⟨List.subset_append_of_subset_left _ (h.keys_subset r), ?_⟩
    split <;> simp
  nodup r := by
    have hnew : key ∉ (p.encode r).map (·.1) := fun hk => hkey (h.keys_subset r hk)
    simp only [add, List.map_append]
    split
    · simpa using h.nodup r
    · exact (h.nodup r).append (by simp) (by simpa using hnew)
  reads r find hfind := by
    have hnew : Assoc.find? key (p.encode r) = none :=
      Assoc.find?_eq_none_of_not_mem fun hk => hkey (h.keys_subset r hk)
    have hold : p.decode find = some (value r) := by
      refine h.reads r find fun k hk => ?_
      have hne : key ≠ k := fun e => hkey (e ▸ hk)
      rw [hfind k (by simp [hk]), find?_encode_add]
      simp [hne]
    have hlast : find key = if silent (get r) then none else some (c.encode (get r)) := by
      rw [hfind key (by simp), find?_encode_add, hnew]
      simp
    simp only [add, hold, hlast]
    by_cases hs : silent (get r) = true
    · simp [hs, hsilent _ hs]
    · simp [hs, hc (get r)]

end Fields

/-- A record is read back if its fields build it. -/
theorem record_lawful {p : Fields ρ ρ} (h : p.Faithful id) : (record p).Lawful := by
  intro r
  exact h.reads r _ fun key _ => Assoc.find?_ofList (h.nodup r) key

end Codec

end StorageControl
