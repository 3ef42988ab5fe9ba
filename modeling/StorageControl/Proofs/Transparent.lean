/-
# What is read shows what it was read from

A codec is transparent if a value that is read shows, at every path, what it was read from, as long as
that is what is written for some value of the type. So nothing that stands at such a path is lost or
changed by reading a value and writing it again. The codecs of the basic types are transparent, and
from these follow those of the records.
-/
import StorageControl.Proofs.Copying

namespace StorageControl

namespace Codec

variable {α β γ ρ : Type}

/-- The codec reads what it writes, it writes the members of objects in the order of their keys, and
what it reads is written with what stood at a path, if that is what stands there in something written. -/
structure Transparent (c : Codec α) : Prop where
  lawful : c.Lawful
  neat : ∀ a, (c.encode a).Neat
  shows : ∀ {v r}, c.decode v = some r → ∀ p a, (Json.lookup? p (c.encode a)).isSome →
    Json.lookup? p v = Json.lookup? p (c.encode a) →
      Json.lookup? p (c.encode r) = Json.lookup? p (c.encode a)

/-! ## Basic types -/

/-- A number has no parts. -/
theorem int64_flat : int64.Flat := by
  rintro a (_ | ⟨key, q⟩) hq
  · exact absurd rfl hq
  · rfl

/-- What is written for a value has no parts, so that only the value itself can stand there. -/
theorem transparent_of_flat {c : Codec α} (hlawful : c.Lawful) (hflat : c.Flat) :
    c.Transparent where
  lawful := hlawful
  neat a p members h := by
    cases p with
    | nil =>
      cases members with
      | nil => exact List.Pairwise.nil
      | cons e rest =>
        have hobj : c.encode a = .obj (e :: rest) := Option.some.inj h
        have hnone := hflat a [e.1] (List.cons_ne_nil _ _)
        rw [List.nil_append, hobj] at hnone
        simp [Json.lookup?, Json.member?, Assoc.find?] at hnone
    | cons key p =>
      have hnone := hflat a (key :: p) (List.cons_ne_nil _ _)
      rw [List.nil_append, h] at hnone
      cases hnone
  shows {v r} hread p a hsome hsame := by
    cases p with
    | nil =>
      obtain rfl : v = c.encode a := Option.some.inj hsame
      rw [hlawful a] at hread
      rw [Option.some.inj hread]
    | cons key p =>
      have hnone := hflat a (key :: p) (List.cons_ne_nil _ _)
      rw [List.nil_append] at hnone
      rw [hnone] at hsome
      cases hsome

theorem text_transparent : text.Transparent := transparent_of_flat text_lawful text_flat

theorem flag_transparent : flag.Transparent := transparent_of_flat flag_lawful flag_flat

theorem int32_transparent : int32.Transparent := transparent_of_flat int32_lawful int32_flat

theorem int64_transparent : int64.Transparent := transparent_of_flat int64_lawful int64_flat

/-! ## Combined types -/

/-- Null has no parts, so that what has some is read as a value. -/
theorem Transparent.nullable {c : Codec α} (h : c.Transparent) (hsolid : c.Solid) :
    c.nullable.Transparent where
  lawful := nullable_lawful h.lawful hsolid
  neat a := by
    cases a with
    | none =>
      intro p members hp
      cases p <;> cases hp
    | some a => exact h.neat a
  shows {v r} hread p a hsome hsame := by
    cases p with
    | nil =>
      obtain rfl : v = c.nullable.encode a := Option.some.inj hsame
      rw [nullable_lawful h.lawful hsolid a] at hread
      rw [Option.some.inj hread]
    | cons key p =>
      cases a with
      | none => cases hsome
      | some a =>
        have hthere : (Json.lookup? (key :: p) v).isSome := by
          rw [hsame]
          exact hsome
        obtain ⟨w, hw⟩ := Option.isSome_iff_exists.1 hthere
        obtain ⟨members, -, rfl, -, -⟩ := Json.exists_of_lookup?_cons hw
        have hmap : (c.decode (.obj members)).map some = some r := hread
        obtain ⟨b, hb, rfl⟩ := Option.map_eq_some_iff.1 hmap
        exact h.shows hb (key :: p) a hsome hsame

/-! ## Records -/

/-- A field of a record: its key, its codec, and how it is taken from the record. -/
structure Member (ρ : Type) where
  {γ : Type}
  key : String
  codec : Codec γ
  get : ρ → γ

/-- The record has the value that stands under the key of the field, if there is one. -/
def Member.Reads (m : Member ρ) (members : List (String × Json)) (r : ρ) : Prop :=
  ∃ absent, (Assoc.find? m.key members).elim absent m.codec.decode = some (m.get r)

/-- What is written for a field. -/
def Member.written (m : Member ρ) (r : ρ) : String × Json :=
  (m.key, m.codec.encode (m.get r))

/-- What is found under a key among what is written for fields is written for one of them. -/
theorem exists_member_of_find? {fields : List (Member ρ)} {r : ρ} {key : String} {w : Json}
    (h : Assoc.find? key (fields.map (·.written r)) = some w) :
    ∃ m ∈ fields, m.key = key ∧ w = m.codec.encode (m.get r) := by
  induction fields with
  | nil => cases h
  | cons m fields ih =>
    rw [List.map_cons, Member.written, Assoc.find?_cons] at h
    split at h
    · rename_i hkey
      exact ⟨m, List.mem_cons_self, hkey, (Option.some.inj h).symm⟩
    · obtain ⟨m', hmem, hm'⟩ := ih h
      exact ⟨m', List.mem_cons_of_mem _ hmem, hm'⟩

/-- A field is found under its key if the keys are different. -/
theorem find?_of_mem {fields : List (Member ρ)} {r : ρ}
    (hnodup : ((fields.map (·.written r)).map (·.1)).Nodup) {m : Member ρ} (hmem : m ∈ fields) :
    Assoc.find? m.key (fields.map (·.written r)) = some (m.codec.encode (m.get r)) := by
  induction fields with
  | nil => cases hmem
  | cons first fields ih =>
    obtain ⟨hnew, hnodup⟩ := List.nodup_cons.1 hnodup
    rw [List.map_cons, Member.written, Assoc.find?_cons]
    rcases List.mem_cons.1 hmem with rfl | hmem
    · rw [if_pos rfl]
    · have hne : first.key ≠ m.key := by
        intro hkey
        refine hnew (List.mem_map.2 ⟨m.written r, List.mem_map_of_mem hmem, ?_⟩)
        exact hkey.symm
      rw [if_neg hne, ih hnodup hmem]

/-- Fields are described by a list of transparent ones, all of which are always written. -/
structure Fields.Described (p : Fields ρ β) (value : ρ → β) (fields : List (Member ρ)) : Prop where
  faithful : p.Faithful value
  writes : ∀ r, p.encode r = fields.map (·.written r)
  transparent : ∀ m ∈ fields, m.codec.Transparent

/-- No fields are described by no members. -/
theorem Fields.of_described (make : β) : (of ρ make).Described (fun _ => make) [] where
  faithful := of_faithful make
  writes _ := rfl
  transparent := nofun

/-- One more field is described with the others. -/
theorem Fields.Described.add {p : Fields ρ (γ → β)} {value : ρ → γ → β} {fields : List (Member ρ)}
    (h : p.Described value fields) {key : String} {c : Codec γ} {get : ρ → γ} {presence : Presence}
    {absent : Option γ} (hc : c.Transparent) (hkey : key ∉ p.keys) :
    (p.add key c get presence absent fun _ => false).Described (fun r => value r (get r))
      (fields ++ [⟨key, c, get⟩]) where
  faithful := add_faithful h.faithful hkey hc.lawful get presence nofun
  writes r := by
    rw [List.map_append, ← h.writes r]
    rfl
  transparent m hmem := by
    rcases List.mem_append.1 hmem with hmem | hmem
    · exact h.transparent m hmem
    · rw [List.mem_singleton.1 hmem]
      exact hc

/-- A record that is described is transparent, if it has the values that stand under the keys of its
fields. -/
theorem record_transparent {p : Fields ρ ρ} {fields : List (Member ρ)}
    (hp : p.Described id fields)
    (hreads : ∀ members r, (record p).decode (.obj members) = some r →
      ∀ m ∈ fields, m.Reads members r) : (record p).Transparent := by
  have hfind (key : String) (r : ρ) :
      ((record p).encode r).member? key = Assoc.find? key (fields.map (·.written r)) := by
    rw [← hp.writes r]
    exact Assoc.find?_ofList (hp.faithful.nodup r) key
  have hwritten (m : Member ρ) (hmem : m ∈ fields) (q : List String) (r : ρ) :
      Json.lookup? (m.key :: q) ((record p).encode r) =
        Json.lookup? q (m.codec.encode (m.get r)) := by
    have hnodup := hp.faithful.nodup r
    rw [hp.writes r] at hnodup
    rw [Json.lookup?, hfind, find?_of_mem hnodup hmem]
    rfl
  refine ⟨record_lawful hp.faithful, ?_, ?_⟩
  · intro r path members h
    cases path with
    | nil =>
      obtain rfl : Assoc.ofList (p.encode r) = members := Json.obj.inj (Option.some.inj h)
      exact Assoc.ordered_ofList _
    | cons key q =>
      obtain ⟨w, hw, hq⟩ := Option.bind_eq_some_iff.1 h
      rw [hfind] at hw
      obtain ⟨m, hmem, -, rfl⟩ := exists_member_of_find? hw
      exact (hp.transparent m hmem).neat (m.get r) q members hq
  · intro v r hread path a hsome hsame
    cases path with
    | nil =>
      obtain rfl : v = (record p).encode a := Option.some.inj hsame
      rw [record_lawful hp.faithful a] at hread
      rw [Option.some.inj hread]
    | cons key q =>
      obtain ⟨x, hx⟩ := Option.isSome_iff_exists.1 hsome
      obtain ⟨w, hw, -⟩ := Option.bind_eq_some_iff.1 hx
      rw [hfind] at hw
      obtain ⟨m, hmem, rfl, -⟩ := exists_member_of_find? hw
      -- The field is read from what stands under its key, so that the rest of the path shows it.
      have hthere : Json.lookup? (m.key :: q) v = some x := hsame.trans hx
      obtain ⟨members, u, rfl, hu, hq⟩ := Json.exists_of_lookup?_cons hthere
      obtain ⟨absent, hfield⟩ := hreads members r hread m hmem
      rw [hu, Option.elim_some] at hfield
      rw [hwritten m hmem] at hx ⊢
      rw [hwritten m hmem]
      refine (hp.transparent m hmem).shows hfield q (m.get a) ?_ (hq.trans hx.symm)
      rw [hx]
      rfl

end Codec

open Codec (text_transparent flag_transparent int32_transparent int64_transparent)
open Codec (text_solid record_solid transparent_of_flat record_transparent)
open Codec.Fields (of_described)

/-! ## Parts of records -/

/-- A record with a single field is transparent if the field is. -/
theorem Codec.single_transparent {γ σ : Type} {field : String} {e : Codec γ} {make : γ → σ}
    {value : σ → γ} (hmake : ∀ a, make (value a) = a) (hvalue : ∀ a, value (make a) = a)
    (he : e.Transparent) : (Codec.single field e make value).Transparent := by
  have hid : (fun r => make (value r)) = id := funext hmake
  have hdescribed : ((Codec.Fields.of σ make).required field e value).Described
      (fun r => make (value r)) [⟨field, e, value⟩] :=
    (of_described make).add he (by simp [Codec.Fields.keys, Codec.Fields.of])
  rw [hid] at hdescribed
  refine record_transparent hdescribed fun members r h => ?_
  simp only [Codec.record, Codec.Fields.required, Codec.Fields.decode_add_eq_some_iff,
    Codec.Fields.decode_of_eq_some_iff] at h
  obtain ⟨_, v, rfl, hv, rfl⟩ := h
  have hfield : value (make v) = v := hvalue v
  rw [List.forall_mem_singleton]
  exact ⟨none, hv.trans (congrArg some hfield.symm)⟩

/-- Each of the three numbers of a function is read from what stands under its key. -/
theorem PciFunction.codec_transparent : PciFunction.codec.Transparent := by
  refine record_transparent (of_described PciFunction.mk
    |>.add int32_transparent (by decide)
    |>.add int32_transparent (by decide)
    |>.add int32_transparent (by decide)) fun members r h => ?_
  simp only [Codec.record, Codec.Fields.defaulted, Codec.Fields.required,
    Codec.Fields.decode_add_eq_some_iff, Codec.Fields.decode_of_eq_some_iff] at h
  obtain ⟨_, _, ⟨_, _, ⟨_, _, rfl, h₁, rfl⟩, h₂, rfl⟩, h₃, rfl⟩ := h
  simp only [List.nil_append, List.cons_append, List.forall_mem_cons]
  exact ⟨⟨_, h₁⟩, ⟨_, h₂⟩, ⟨_, h₃⟩, List.forall_mem_nil _⟩

theorem AddressFamily.codec_transparent : AddressFamily.codec.Transparent :=
  transparent_of_flat (by rintro (_ | _) <;> rfl) (Codec.word_flat _ _)

/-- Each part of an address is read from what stands under its key. -/
theorem FabricAddress.codec_transparent : FabricAddress.codec.Transparent := by
  refine record_transparent (of_described FabricAddress.mk
    |>.add text_transparent (by decide)
    |>.add text_transparent (by decide)
    |>.add AddressFamily.codec_transparent (by decide)) fun members r h => ?_
  simp only [Codec.record, Codec.Fields.defaulted, Codec.Fields.required,
    Codec.Fields.decode_add_eq_some_iff, Codec.Fields.decode_of_eq_some_iff] at h
  obtain ⟨_, _, ⟨_, _, ⟨_, _, rfl, h₁, rfl⟩, h₂, rfl⟩, h₃, rfl⟩ := h
  simp only [List.nil_append, List.cons_append, List.forall_mem_cons]
  exact ⟨⟨_, h₁⟩, ⟨_, h₂⟩, ⟨_, h₃⟩, List.forall_mem_nil _⟩

theorem TransportKind.codec_transparent : TransportKind.codec.Transparent :=
  transparent_of_flat (by rintro (_ | _ | _) <;> rfl) (Codec.word_flat _ _)

/-- No endpoint is written as null. -/
theorem Endpoint.codec_solid : Endpoint.codec.Solid := by
  rintro (_ | _) h <;> cases h

/-- A path into what is written for an endpoint begins with its kind. -/
theorem Json.exists_of_lookup?_single {kind : String} {x w : Json} {p : List String}
    (h : lookup? p (.obj [(kind, x)]) = some w) (hp : p ≠ []) :
    ∃ q, p = kind :: q ∧ lookup? q x = some w := by
  obtain ⟨key, q, rfl⟩ := List.exists_cons_of_ne_nil hp
  obtain ⟨u, hu, hq⟩ := Option.bind_eq_some_iff.1 h
  rw [member?, Assoc.find?_cons] at hu
  split at hu
  · rename_i hkey
    obtain rfl := Option.some.inj hu
    exact ⟨q, by rw [hkey], hq⟩
  · cases hu

/-- An object with a single member is in order if the member is. -/
theorem Json.Neat.single {v : Json} (h : v.Neat) (key : String) : (Json.obj [(key, v)]).Neat := by
  intro p members hp
  by_cases hnil : p = []
  · subst hnil
    obtain rfl : [(key, v)] = members := Json.obj.inj (Option.some.inj hp)
    exact List.pairwise_singleton _ _
  · obtain ⟨q, -, hq⟩ := Json.exists_of_lookup?_single hp hnil
    exact h q members hq

/-- The value of an endpoint is read from what stands under its kind. -/
theorem Endpoint.decode_eq_some {members : List (String × Json)} {kind : String} {u : Json}
    {r : Endpoint} (hread : codec.decode (.obj members) = some r)
    (hu : Assoc.find? kind members = some u) : codec.decode (.obj [(kind, u)]) = some r := by
  simp only [codec] at hread
  split at hread
  · rename_i key value heq
    obtain rfl := Json.obj.inj heq
    rw [Assoc.find?_cons] at hu
    split at hu
    · rename_i hkey
      obtain rfl := Option.some.inj hu
      rw [← hkey]
      exact hread
    · cases hu
  · cases hread

/-- An endpoint is read back by its kind. -/
theorem Endpoint.codec_lawful : Endpoint.codec.Lawful := by
  intro a
  cases a with
  | pcie function =>
    have hread := PciFunction.codec_transparent.lawful function
    simp [codec, hread]
  | fabrics address =>
    have hread := FabricAddress.codec_transparent.lawful address
    simp [codec, hread]

/-- A path into an endpoint begins with its kind, and goes on in what is written under that. -/
theorem Endpoint.codec_transparent : Endpoint.codec.Transparent where
  lawful := codec_lawful
  neat a := by
    cases a with
    | pcie function => exact (PciFunction.codec_transparent.neat function).single "pcie"
    | fabrics address => exact (FabricAddress.codec_transparent.neat address).single "fabrics"
  shows {v r} hread p a hsome hsame := by
    by_cases hnil : p = []
    · subst hnil
      obtain rfl : v = codec.encode a := Option.some.inj hsame
      rw [codec_lawful a] at hread
      rw [Option.some.inj hread]
    obtain ⟨w, hw⟩ := Option.isSome_iff_exists.1 hsome
    cases a with
    | pcie function =>
      obtain ⟨q, rfl, hq⟩ := Json.exists_of_lookup?_single hw hnil
      obtain ⟨members, u, rfl, hu, hqu⟩ := Json.exists_of_lookup?_cons (hsame.trans hw)
      obtain ⟨b, hb, rfl⟩ := Option.map_eq_some_iff.1 (decode_eq_some hread hu)
      exact PciFunction.codec_transparent.shows hb q function (hq ▸ rfl) (hqu.trans hq.symm)
    | fabrics address =>
      obtain ⟨q, rfl, hq⟩ := Json.exists_of_lookup?_single hw hnil
      obtain ⟨members, u, rfl, hu, hqu⟩ := Json.exists_of_lookup?_cons (hsame.trans hw)
      obtain ⟨b, hb, rfl⟩ := Option.map_eq_some_iff.1 (decode_eq_some hread hu)
      exact FabricAddress.codec_transparent.shows hb q address (hq ▸ rfl) (hqu.trans hq.symm)

/-- Each of the four limits is read from what stands under its key. -/
theorem Limits.codec_transparent : Limits.codec.Transparent := by
  refine record_transparent (of_described Limits.mk
    |>.add int64_transparent (by decide)
    |>.add int64_transparent (by decide)
    |>.add int64_transparent (by decide)
    |>.add int64_transparent (by decide)) fun members r h => ?_
  simp only [Codec.record, Codec.Fields.defaulted, Codec.Fields.decode_add_eq_some_iff,
    Codec.Fields.decode_of_eq_some_iff] at h
  obtain ⟨_, _, ⟨_, _, ⟨_, _, ⟨_, _, rfl, h₁, rfl⟩, h₂, rfl⟩, h₃, rfl⟩, h₄, rfl⟩ := h
  simp only [List.nil_append, List.cons_append, List.forall_mem_cons]
  exact ⟨⟨_, h₁⟩, ⟨_, h₂⟩, ⟨_, h₃⟩, ⟨_, h₄⟩, List.forall_mem_nil _⟩

/-- The host and the key of a subsystem may be null, which is a value of its own. -/
theorem SubsystemSpec.codec_transparent : SubsystemSpec.codec.Transparent := by
  refine record_transparent (of_described SubsystemSpec.mk
    |>.add text_transparent (by decide)
    |>.add text_transparent (by decide)
    |>.add text_transparent (by decide)
    |>.add int64_transparent (by decide)
    |>.add (text_transparent.nullable text_solid) (by decide)
    |>.add (text_transparent.nullable text_solid) (by decide)) fun members r h => ?_
  simp only [Codec.record, Codec.Fields.defaulted, Codec.Fields.required, Codec.Fields.nullable,
    Codec.Fields.decode_add_eq_some_iff, Codec.Fields.decode_of_eq_some_iff] at h
  obtain ⟨_, _, ⟨_, _, ⟨_, _, ⟨_, _, ⟨_, _, ⟨_, _, rfl, h₁, rfl⟩, h₂, rfl⟩, h₃, rfl⟩, h₄, rfl⟩,
    h₅, rfl⟩, h₆, rfl⟩ := h
  simp only [List.nil_append, List.cons_append, List.forall_mem_cons]
  exact ⟨⟨_, h₁⟩, ⟨_, h₂⟩, ⟨_, h₃⟩, ⟨_, h₄⟩, ⟨_, h₅⟩, ⟨_, h₆⟩, List.forall_mem_nil _⟩

/-- The endpoint of a controller may be null, and has parts if it is not. -/
theorem ControllerSpec.codec_transparent : ControllerSpec.codec.Transparent := by
  refine record_transparent (of_described ControllerSpec.mk
    |>.add text_transparent (by decide)
    |>.add int32_transparent (by decide)
    |>.add TransportKind.codec_transparent (by decide)
    |>.add (Endpoint.codec_transparent.nullable Endpoint.codec_solid) (by decide)
    |>.add int32_transparent (by decide)
    |>.add int32_transparent (by decide)) fun members r h => ?_
  simp only [Codec.record, Codec.Fields.defaulted, Codec.Fields.nullable,
    Codec.Fields.decode_add_eq_some_iff, Codec.Fields.decode_of_eq_some_iff] at h
  obtain ⟨_, _, ⟨_, _, ⟨_, _, ⟨_, _, ⟨_, _, ⟨_, _, rfl, h₁, rfl⟩, h₂, rfl⟩, h₃, rfl⟩, h₄, rfl⟩,
    h₅, rfl⟩, h₆, rfl⟩ := h
  simp only [List.nil_append, List.cons_append, List.forall_mem_cons]
  exact ⟨⟨_, h₁⟩, ⟨_, h₂⟩, ⟨_, h₃⟩, ⟨_, h₄⟩, ⟨_, h₅⟩, ⟨_, h₆⟩, List.forall_mem_nil _⟩

/-- Each of the three identifiers of a namespace may be null. -/
theorem NvmeNamespaceSpec.codec_transparent : NvmeNamespaceSpec.codec.Transparent := by
  refine record_transparent (of_described NvmeNamespaceSpec.mk
    |>.add text_transparent (by decide)
    |>.add int32_transparent (by decide)
    |>.add text_transparent (by decide)
    |>.add (text_transparent.nullable text_solid) (by decide)
    |>.add (text_transparent.nullable text_solid) (by decide)
    |>.add (text_transparent.nullable text_solid) (by decide)) fun members r h => ?_
  simp only [Codec.record, Codec.Fields.defaulted, Codec.Fields.required, Codec.Fields.nullable,
    Codec.Fields.decode_add_eq_some_iff, Codec.Fields.decode_of_eq_some_iff] at h
  obtain ⟨_, _, ⟨_, _, ⟨_, _, ⟨_, _, ⟨_, _, ⟨_, _, rfl, h₁, rfl⟩, h₂, rfl⟩, h₃, rfl⟩, h₄, rfl⟩,
    h₅, rfl⟩, h₆, rfl⟩ := h
  simp only [List.nil_append, List.cons_append, List.forall_mem_cons]
  exact ⟨⟨_, h₁⟩, ⟨_, h₂⟩, ⟨_, h₃⟩, ⟨_, h₄⟩, ⟨_, h₅⟩, ⟨_, h₆⟩, List.forall_mem_nil _⟩

theorem OperState.codec_transparent : OperState.codec.Transparent :=
  transparent_of_flat (by rintro (_ | _ | _) <;> rfl) (Codec.word_flat _ _)

/-! ## Records -/

/-- A report has a single field, whatever the record is. -/
theorem SubsystemStatus.codec_transparent : SubsystemStatus.codec.Transparent :=
  Codec.single_transparent (fun _ => rfl) (fun _ => rfl) text_transparent

theorem ControllerStatus.codec_transparent : ControllerStatus.codec.Transparent :=
  Codec.single_transparent (fun _ => rfl) (fun _ => rfl) flag_transparent

theorem NvmeNamespaceStatus.codec_transparent : NvmeNamespaceStatus.codec.Transparent :=
  Codec.single_transparent (fun _ => rfl) (fun _ => rfl) OperState.codec_transparent

/-- A record with a name, a specification and a report is transparent if these are. -/
theorem Codec.reported_transparent {ρ σ τ : Type} {make : String → σ → Option τ → ρ}
    {name : ρ → String} {spec : ρ → σ} {report : ρ → Option τ} {c : Codec σ} {s : Codec τ}
    (hmake : ∀ r, make (name r) (spec r) (report r) = r)
    (hname : ∀ n x t, name (make n x t) = n) (hspec : ∀ n x t, spec (make n x t) = x)
    (hreport : ∀ n x t, report (make n x t) = t) (hc : c.Transparent)
    (hs : s.nullable.Transparent) :
    (Codec.record <| (Codec.Fields.of ρ make)
      |>.defaulted "name" .text name ""
      |>.required "spec" c spec
      |>.nullable "status" s report).Transparent := by
  have hid : (fun r => make (name r) (spec r) (report r)) = id := funext hmake
  have hnamed : ((Codec.Fields.of ρ make).defaulted "name" .text name "").Described
      (fun r => make (name r)) [⟨"name", .text, name⟩] :=
    (of_described make).add text_transparent (by simp [Codec.Fields.keys, Codec.Fields.of])
  have hspecified : (((Codec.Fields.of ρ make).defaulted "name" .text name "").required
      "spec" c spec).Described (fun r => make (name r) (spec r))
      [⟨"name", .text, name⟩, ⟨"spec", c, spec⟩] :=
    hnamed.add hc (by simp [Codec.Fields.defaulted, Codec.Fields.keys, Codec.Fields.of,
      Codec.Fields.add])
  have hdescribed : ((((Codec.Fields.of ρ make).defaulted "name" .text name "").required
      "spec" c spec).nullable "status" s report).Described id
      [⟨"name", .text, name⟩, ⟨"spec", c, spec⟩, ⟨"status", s.nullable, report⟩] := by
    rw [← hid]
    exact hspecified.add hs (by simp [Codec.Fields.defaulted, Codec.Fields.required,
      Codec.Fields.keys, Codec.Fields.of, Codec.Fields.add])
  refine record_transparent hdescribed fun members r h => ?_
  simp only [Codec.record, Codec.Fields.defaulted, Codec.Fields.required, Codec.Fields.nullable,
    Codec.Fields.decode_add_eq_some_iff, Codec.Fields.decode_of_eq_some_iff] at h
  obtain ⟨_, t, ⟨_, x, ⟨_, n, rfl, hn, rfl⟩, hx, rfl⟩, ht, rfl⟩ := h
  simp only [List.forall_mem_cons]
  have hn' : some n = some (name (make n x t)) := by rw [hname]
  have hx' : some x = some (spec (make n x t)) := by rw [hspec]
  have ht' : some t = some (report (make n x t)) := by rw [hreport]
  exact ⟨⟨_, hn.trans hn'⟩, ⟨_, hx.trans hx'⟩, ⟨_, ht.trans ht'⟩, List.forall_mem_nil _⟩

/-- The limits of a device may be null, and have parts if they are not. -/
theorem VirtioBlk.codec_transparent : VirtioBlk.codec.Transparent := by
  refine record_transparent (of_described VirtioBlk.mk
    |>.add text_transparent (by decide)
    |>.add PciFunction.codec_transparent (by decide)
    |>.add text_transparent (by decide)
    |>.add int64_transparent (by decide)
    |>.add (Limits.codec_transparent.nullable (record_solid _)) (by decide)) fun members r h => ?_
  simp only [Codec.record, Codec.Fields.defaulted, Codec.Fields.required, Codec.Fields.nullable,
    Codec.Fields.decode_add_eq_some_iff, Codec.Fields.decode_of_eq_some_iff] at h
  obtain ⟨_, _, ⟨_, _, ⟨_, _, ⟨_, _, ⟨_, _, rfl, h₁, rfl⟩, h₂, rfl⟩, h₃, rfl⟩, h₄, rfl⟩, h₅,
    rfl⟩ := h
  simp only [List.nil_append, List.cons_append, List.forall_mem_cons]
  exact ⟨⟨_, h₁⟩, ⟨_, h₂⟩, ⟨_, h₃⟩, ⟨_, h₄⟩, ⟨_, h₅⟩, List.forall_mem_nil _⟩

theorem ScsiController.codec_transparent : ScsiController.codec.Transparent := by
  refine record_transparent (of_described ScsiController.mk
    |>.add text_transparent (by decide)
    |>.add PciFunction.codec_transparent (by decide)
    |>.add int32_transparent (by decide)) fun members r h => ?_
  simp only [Codec.record, Codec.Fields.defaulted, Codec.Fields.decode_add_eq_some_iff,
    Codec.Fields.decode_of_eq_some_iff] at h
  obtain ⟨_, _, ⟨_, _, ⟨_, _, rfl, h₁, rfl⟩, h₂, rfl⟩, h₃, rfl⟩ := h
  simp only [List.nil_append, List.cons_append, List.forall_mem_cons]
  exact ⟨⟨_, h₁⟩, ⟨_, h₂⟩, ⟨_, h₃⟩, List.forall_mem_nil _⟩

theorem ScsiLun.codec_transparent : ScsiLun.codec.Transparent := by
  refine record_transparent (of_described ScsiLun.mk
    |>.add text_transparent (by decide)
    |>.add text_transparent (by decide)
    |>.add text_transparent (by decide)
    |>.add int32_transparent (by decide)) fun members r h => ?_
  simp only [Codec.record, Codec.Fields.defaulted, Codec.Fields.required,
    Codec.Fields.decode_add_eq_some_iff, Codec.Fields.decode_of_eq_some_iff] at h
  obtain ⟨_, _, ⟨_, _, ⟨_, _, ⟨_, _, rfl, h₁, rfl⟩, h₂, rfl⟩, h₃, rfl⟩, h₄, rfl⟩ := h
  simp only [List.nil_append, List.cons_append, List.forall_mem_cons]
  exact ⟨⟨_, h₁⟩, ⟨_, h₂⟩, ⟨_, h₃⟩, ⟨_, h₄⟩, List.forall_mem_nil _⟩

/-- A subsystem has a report on its firmware. -/
theorem Subsystem.codec_transparent : Subsystem.codec.Transparent :=
  Codec.reported_transparent (fun _ => rfl) (fun _ _ _ => rfl) (fun _ _ _ => rfl)
    (fun _ _ _ => rfl) SubsystemSpec.codec_transparent
    (SubsystemStatus.codec_transparent.nullable (record_solid _))

/-- A controller has a report on whether it is active. -/
theorem Controller.codec_transparent : Controller.codec.Transparent :=
  Codec.reported_transparent (fun _ => rfl) (fun _ _ _ => rfl) (fun _ _ _ => rfl)
    (fun _ _ _ => rfl) ControllerSpec.codec_transparent
    (ControllerStatus.codec_transparent.nullable (record_solid _))

/-- A namespace has a report on its state. -/
theorem NvmeNamespace.codec_transparent : NvmeNamespace.codec.Transparent :=
  Codec.reported_transparent (fun _ => rfl) (fun _ _ _ => rfl) (fun _ _ _ => rfl)
    (fun _ _ _ => rfl) NvmeNamespaceSpec.codec_transparent
    (NvmeNamespaceStatus.codec_transparent.nullable (record_solid _))

/-- The records of every kind are transparent. -/
theorem Kind.codec_transparent (k : Kind) : (Resource.codec : Codec k.Record).Transparent := by
  cases k with
  | subsystem => exact Subsystem.codec_transparent
  | controller => exact Controller.codec_transparent
  | nvmeNamespace => exact NvmeNamespace.codec_transparent
  | virtioBlk => exact VirtioBlk.codec_transparent
  | scsiController => exact ScsiController.codec_transparent
  | scsiLun => exact ScsiLun.codec_transparent

end StorageControl
