/-
# Values are recovered from the text that is written of them

A codec is sound if it is lawful and what it writes fits its shape. Then the text that is written of
a value is read as that value. The codecs of the basic types are sound, and codecs put together from
sound ones are sound again: a record is written with all members that it must have, and with no
others than those that its layout names.
-/
import StorageControl.Proofs.Codec
import StorageControl.Proofs.Contents
import StorageControl.Proofs.Written

namespace StorageControl

namespace Codec

variable {α β γ ρ : Type} {n : Nat} {c : Codec α}

/-- The codec reads every value from its written form, which fits the shape of the codec with at
most so many lists and objects within one another. -/
structure Sound (n : Nat) (c : Codec α) : Prop where
  lawful : c.Lawful
  fits : ∀ a, Shape.Fits n c.shape (c.encode a)

/-! ## Basic types -/

/-- A whole number between the bounds of its shape is written so that it fits. -/
theorem fits_ofInt {least greatest k : Int} (h : least ≤ k ∧ k ≤ greatest) (hheld : Number.Held k) :
    Shape.Fits n (.whole least greatest) (.ofInt k) :=
  .plain (.inr ⟨k, rfl, hheld⟩) (if_pos h)

/-- Texts fit as they are. -/
theorem text_sound : text.Sound n where
  lawful := text_lawful
  fits _ := .plain trivial rfl

theorem flag_sound : flag.Sound n where
  lawful := flag_lawful
  fits _ := .plain trivial rfl

/-- A 32-bit number lies between the bounds of its shape. -/
theorem int32_sound : int32.Sound n where
  lawful := int32_lawful
  fits k := by
    have hlow := k.le_toInt
    have hhigh := k.toInt_lt
    exact fits_ofInt ⟨hlow, by omega⟩ ⟨by omega, by omega⟩

/-- A 64-bit number lies between the bounds of its shape. -/
theorem int64_sound : int64.Sound n where
  lawful := int64_lawful
  fits k := by
    have hlow := k.le_toInt
    have hhigh := k.toInt_lt
    exact fits_ofInt ⟨hlow, by omega⟩ ⟨by omega, by omega⟩

/-- A number without a sign is read back, and lies between the bounds of its shape. -/
theorem uint64_sound : uint64.Sound n where
  lawful k := by
    have hhigh := k.toNat_lt
    have h : (0 : Int) ≤ k.toNat ∧ (k.toNat : Int) ≤ 18446744073709551615 := by omega
    simp [uint64, wholeBetween_ofInt h]
  fits k := by
    have hhigh := k.toNat_lt
    exact fits_ofInt ⟨by omega, by omega⟩ ⟨by omega, by omega⟩

/-- Words are read back if each of them is one of those that are read, and means what it is written
for. -/
theorem word_sound {name : α → String} {words : List (String × α)}
    (h : ∀ a, Assoc.find? (name a) words = some a) : (word name words).Sound n where
  lawful := h
  fits a := by
    have hmem : name a ∈ words.map (·.1) := by
      by_contra hnot
      have hfind := h a
      rw [Assoc.find?_eq_none_of_not_mem hnot] at hfind
      cases hfind
    exact .plain trivial (if_pos hmem)

/-! ## Combined types -/

/-- A list is one deeper than its items. -/
theorem Sound.list (h : c.Sound n) : c.list.Sound (n + 1) where
  lawful := list_lawful h.lawful
  fits l := by
    refine .list (.inl rfl) fun v hv => ?_
    obtain ⟨a, -, rfl⟩ := List.mem_map.1 hv
    exact h.fits a

/-- Null is told from every value that is not written as null. -/
theorem Sound.nullable (h : c.Sound n) (hsolid : c.Solid) : c.nullable.Sound n where
  lawful := nullable_lawful h.lawful hsolid
  fits a := by
    cases a with
    | none => exact .plain trivial rfl
    | some a => exact .nullable (hsolid a) (h.fits a)

/-! ## Records -/

namespace Fields

/-- Fields are sound for some records if they are faithful, no two have the same key, and of each of
these records the members that are required are written, and none that do not fit their fields. -/
structure Sound (n : Nat) (p : Fields ρ β) (value : ρ → β) (P : ρ → Prop) : Prop extends
    p.Faithful value where
  distinct : p.keys.Nodup
  known : ∀ r, P r → ∀ m ∈ p.encode r, ∃ f ∈ p.layout, f.1 = m.1 ∧ Shape.Fits n f.2.2 m.2
  complete : ∀ r, ∀ f ∈ p.layout, f.2.1 = .required → f.1 ∈ (p.encode r).map (·.1)

variable {p : Fields ρ (γ → β)} {value : ρ → γ → β} {P : ρ → Prop} {key : String} {d : Codec γ}
  {get : ρ → γ}

/-- To begin with there are no fields. -/
theorem of_sound (P : ρ → Prop) (make : β) : (of ρ make).Sound n (fun _ => make) P where
  toFaithful := of_faithful make
  distinct := List.nodup_nil
  known _ _ _ hm := absurd hm List.not_mem_nil
  complete _ _ hf := absurd hf List.not_mem_nil

/-- One more field keeps fields sound if its key is new, what is written of it fits its shape, and a
value that is not written is the one that is taken when nothing is there, and is not required. -/
theorem Sound.add (h : p.Sound n value P) (hkey : key ∉ p.keys) (hlawful : d.Lawful)
    (hfits : ∀ r, P r → Shape.Fits n d.shape (d.encode (get r))) (presence : Presence)
    {absent : Option γ} {silent : γ → Bool}
    (hsilent : ∀ v, silent v = true → absent = some v ∧ presence ≠ .required) :
    (p.add key d get presence absent silent).Sound n (fun r => value r (get r)) P where
  toFaithful := add_faithful h.toFaithful hkey hlawful get presence fun v hv => (hsilent v hv).1
  distinct := by
    rw [keys_add]
    exact h.distinct.append (List.nodup_singleton _) (by simpa using hkey)
  known r hr m hm := by
    rcases List.mem_append.1 hm with hm | hm
    · obtain ⟨f, hf, hfm⟩ := h.known r hr m hm
      exact ⟨f, List.mem_append_left _ hf, hfm⟩
    · split at hm
      · cases hm
      · obtain rfl := List.mem_singleton.1 hm
        exact ⟨_, List.mem_append_right _ List.mem_cons_self, rfl, hfits r hr⟩
  complete r f hf hrequired := by
    rw [Fields.add, List.map_append, List.mem_append]
    rcases List.mem_append.1 hf with hf | hf
    · exact .inl (h.complete r f hf hrequired)
    · obtain rfl := List.mem_singleton.1 hf
      have hwritten : ¬ silent (get r) = true := fun hs => (hsilent _ hs).2 hrequired
      rw [if_neg hwritten]
      exact .inr List.mem_cons_self

/-- A required field is always written. -/
theorem Sound.required (h : p.Sound n value P) (hd : d.Sound n) (hkey : key ∉ p.keys) :
    (p.required key d get).Sound n (fun r => value r (get r)) P :=
  h.add hkey hd.lawful (fun r _ => hd.fits (get r)) .required
    fun _ hs => absurd hs Bool.false_ne_true

/-- So is one with a default; only a reader may do without it. What is written of it may fit for
some of the records only. -/
theorem Sound.defaultedOf {default : γ} (h : p.Sound n value P) (hlawful : d.Lawful)
    (hfits : ∀ r, P r → Shape.Fits n d.shape (d.encode (get r))) (hkey : key ∉ p.keys) :
    (p.defaulted key d get default).Sound n (fun r => value r (get r)) P :=
  h.add hkey hlawful hfits .defaulted fun _ hs => absurd hs Bool.false_ne_true

/-- If the codec of the field is sound, it fits for all of them. -/
theorem Sound.defaulted {default : γ} (h : p.Sound n value P) (hd : d.Sound n)
    (hkey : key ∉ p.keys) :
    (p.defaulted key d get default).Sound n (fun r => value r (get r)) P :=
  h.defaultedOf hd.lawful (fun r _ => hd.fits (get r)) hkey

theorem Sound.nullable {p : Fields ρ (Option γ → β)} {value : ρ → Option γ → β}
    {get : ρ → Option γ} (h : p.Sound n value P) (hd : d.Sound n) (hsolid : d.Solid)
    (hkey : key ∉ p.keys) :
    (p.nullable key d get).Sound n (fun r => value r (get r)) P :=
  h.defaulted (hd.nullable hsolid) hkey

/-- A field that is left out when there is nothing to say is read as nothing when it is missing. -/
theorem Sound.omittable {p : Fields ρ (Option γ → β)} {value : ρ → Option γ → β}
    {get : ρ → Option γ} (h : p.Sound n value P) (hd : d.Sound n) (hsolid : d.Solid)
    (hkey : key ∉ p.keys) :
    (p.omittable key d get).Sound n (fun r => value r (get r)) P :=
  h.add hkey (nullable_lawful hd.lawful hsolid)
    (fun r _ => (hd.nullable hsolid).fits (get r)) .optional fun v hv => by
      rw [Option.isNone_iff_eq_none] at hv
      exact ⟨by rw [hv], Presence.noConfusion⟩

/-- A text that is left out when it is empty is read as empty when it is missing. -/
theorem Sound.omittableText {p : Fields ρ (String → β)} {value : ρ → String → β}
    {get : ρ → String} (h : p.Sound n value P) (hkey : key ∉ p.keys) :
    (p.omittableText key get).Sound n (fun r => value r (get r)) P :=
  h.add hkey text_lawful (fun r _ => text_sound.fits (get r)) .defaulted fun v hv => by
    rw [String.isEmpty_iff] at hv
    exact ⟨by rw [hv], Presence.noConfusion⟩

/-- The field with one of the keys is found by its key. -/
theorem find?_layout {p : Fields ρ β} (h : p.keys.Nodup) {f : Field} (hf : f ∈ p.layout) :
    p.layout.find? (fun g => g.1 == f.1) = some f := by
  rw [keys] at h
  generalize p.layout = fields at h hf
  induction fields with
  | nil => cases hf
  | cons g fields ih =>
    obtain ⟨hg, hfields⟩ := List.nodup_cons.1 h
    by_cases heq : g.1 = f.1
    · have hnot : f ∉ fields := fun hmem => hg (List.mem_map.2 ⟨f, hmem, heq.symm⟩)
      obtain rfl := (List.mem_cons.1 hf).resolve_right hnot
      exact List.find?_cons_of_pos (beq_self_eq_true _)
    · have hmem : f ∈ fields := (List.mem_cons.1 hf).resolve_left fun h => heq (h ▸ rfl)
      rw [List.find?_cons_of_neg (by simpa using heq)]
      exact ih hfields hmem

end Fields

/-- What is written of a record with sound fields fits its layout. -/
theorem fits_record {p : Fields ρ ρ} {P : ρ → Prop} (h : p.Sound n id P) {r : ρ} (hr : P r) :
    Shape.Fits (n + 1) (record p).shape ((record p).encode r) := by
  have hordered := Assoc.ordered_ofList (p.encode r)
  have hknown (m : String × Json) (hm : m ∈ Assoc.ofList (p.encode r)) :
      ∃ f, p.layout.find? (fun f => f.1 == m.1) = some f ∧ Shape.Fits n f.2.2 m.2 := by
    have hfind := hordered.find?_of_mem hm
    rw [Assoc.find?_ofList (h.nodup r)] at hfind
    obtain ⟨f, hf, hkey, hfits⟩ := h.known r hr m (Assoc.mem_of_find? hfind)
    exact ⟨f, hkey ▸ Fields.find?_layout h.distinct hf, hfits⟩
  refine .record hordered ?_ ?_ ?_
  · intro m hm
    obtain ⟨f, hf, -⟩ := hknown m hm
    rw [hf]
    rfl
  · rw [Field.complete, List.all_eq_true]
    intro f hf
    by_cases hrequired : f.2.1 = .required
    · obtain ⟨v, hv⟩ := Assoc.exists_find?_of_mem (h.complete r f hf hrequired)
      rw [← Assoc.find?_ofList (h.nodup r)] at hv
      have hwritten : f.1 ∈ (Assoc.ofList (p.encode r)).map (·.1) :=
        List.mem_map.2 ⟨_, Assoc.mem_of_find? hv, rfl⟩
      rw [List.contains_iff_mem.2 hwritten, Bool.or_true]
    · simp [hrequired]
  · intro m hm f hf
    obtain ⟨g, hg, hfits⟩ := hknown m hm
    obtain rfl : g = f := Option.some.inj (hg.symm.trans hf)
    exact hfits

/-- Records are read back, and those for which the fields are sound are written so that they fit. -/
theorem lawful_and_fits {p : Fields ρ ρ} {P : ρ → Prop} (h : p.Sound n id P) :
    (record p).Lawful ∧
      ∀ r, P r → Shape.Fits (n + 1) (record p).shape ((record p).encode r) :=
  ⟨record_lawful h.toFaithful, fun _ => fits_record h⟩

/-- A record is one deeper than its fields. -/
theorem record_sound {p : Fields ρ ρ} (h : p.Sound n id fun _ => True) :
    (record p).Sound (n + 1) where
  lawful := record_lawful h.toFaithful
  fits _ := fits_record h trivial

/-! ## Texts of values -/

/-- A value that the codec reads and that is written so that it fits is found at the front of its
text. -/
theorem read_print (hlawful : c.Lawful) {a : α}
    (hfits : Shape.Fits Json.Reader.depthLimit c.shape (c.encode a)) {rest : List UInt8}
    (hrest : Json.Reader.Ends rest) :
    c.read (Text.bytes (c.encode a).print ++ rest) = .found a rest := by
  have hroom : ([] : List Json.Reader.Frame).length + Json.Reader.depthLimit ≤
      Json.Reader.depthLimit := Nat.le_of_eq (Nat.zero_add _)
  have hread := (hfits.readsAs hroom).found hrest
  rw [Json.readWithin_depthLimit] at hread
  simp only [read, hread, hlawful a]

end Codec

end StorageControl
