/-
# Records survive their wire form

Records, requests for them, configurations, and the engine's parameters and rows are recovered from
what is written of them, as a value and as a text, whichever of their fields are left out, null or
at their defaults. So what is accepted as one of them is written in a form that is accepted again
and means the same. What a listed subsystem says of its hosts may be any values; they are kept, and
recovered from a text if they fit into what the reader has room for.
-/
import StorageControl.Config
import StorageControl.Proofs.Parameters
import StorageControl.Proofs.Transparent
import StorageControl.Record.Request
import StorageControl.Record.Stats

namespace StorageControl

open Codec (text_sound text_solid flag_sound int32_sound int64_sound uint64_sound word_sound)
open Codec (record_sound record_solid)
open Codec.Fields (of_sound)

/-! ## Endpoints -/

/-- A function that does not name a virtual function or a port is a physical one on port zero. -/
theorem PciFunction.codec_sound (n : Nat) : PciFunction.codec.Sound (n + 1) :=
  record_sound <| of_sound _ PciFunction.mk
    |>.required int32_sound (by decide)
    |>.defaulted int32_sound (by decide)
    |>.defaulted int32_sound (by decide)

/-- An address family is written in one of the two spellings that it is read in. -/
theorem AddressFamily.codec_sound (n : Nat) : AddressFamily.codec.Sound n :=
  word_sound (by rintro (_ | _) <;> rfl)

/-- An address without a family is one of the default family. -/
theorem FabricAddress.codec_sound (n : Nat) : FabricAddress.codec.Sound (n + 1) :=
  record_sound <| of_sound _ FabricAddress.mk
    |>.required text_sound (by decide)
    |>.required text_sound (by decide)
    |>.defaulted (AddressFamily.codec_sound _) (by decide)

/-- An endpoint is an object with a single member, whose key says of which kind it is. -/
theorem Endpoint.codec_sound (n : Nat) : Endpoint.codec.Sound (n + 2) where
  lawful := Endpoint.codec_lawful
  fits a := by
    cases a with
    | pcie function => exact .variant rfl ((PciFunction.codec_sound n).fits function)
    | fabrics address => exact .variant rfl ((FabricAddress.codec_sound n).fits address)

/-- A kind of transport is a word. -/
theorem TransportKind.codec_sound (n : Nat) : TransportKind.codec.Sound n :=
  word_sound (by rintro (_ | _ | _) <;> rfl)

/-! ## NVMe records -/

/-- A subsystem without a host or a key is written with null in their places. -/
theorem SubsystemSpec.codec_sound (n : Nat) : SubsystemSpec.codec.Sound (n + 1) :=
  record_sound <| of_sound _ SubsystemSpec.mk
    |>.required text_sound (by decide)
    |>.defaulted text_sound (by decide)
    |>.defaulted text_sound (by decide)
    |>.defaulted int64_sound (by decide)
    |>.nullable text_sound text_solid (by decide)
    |>.nullable text_sound text_solid (by decide)

theorem SubsystemStatus.codec_sound (n : Nat) : SubsystemStatus.codec.Sound (n + 1) :=
  record_sound <| of_sound _ SubsystemStatus.mk
    |>.required text_sound (by decide)

/-- A name that is left out is empty, and a report that is left out is none; only what is asked of a
subsystem has to be there. -/
theorem Subsystem.codec_sound (n : Nat) : Subsystem.codec.Sound (n + 2) :=
  record_sound <| of_sound _ Subsystem.mk
    |>.defaulted text_sound (by decide)
    |>.required (SubsystemSpec.codec_sound _) (by decide)
    |>.nullable (SubsystemStatus.codec_sound _) (record_solid _) (by decide)

/-- An endpoint is an object within the specification, with an object of its own in it. -/
theorem ControllerSpec.codec_sound (n : Nat) : ControllerSpec.codec.Sound (n + 3) :=
  record_sound <| of_sound _ ControllerSpec.mk
    |>.defaulted text_sound (by decide)
    |>.defaulted int32_sound (by decide)
    |>.defaulted (TransportKind.codec_sound _) (by decide)
    |>.nullable (Endpoint.codec_sound _) Endpoint.codec_solid (by decide)
    |>.defaulted int32_sound (by decide)
    |>.defaulted int32_sound (by decide)

theorem ControllerStatus.codec_sound (n : Nat) : ControllerStatus.codec.Sound (n + 1) :=
  record_sound <| of_sound _ ControllerStatus.mk
    |>.required flag_sound (by decide)

/-- With its endpoint a controller is the deepest record. -/
theorem Controller.codec_sound (n : Nat) : Controller.codec.Sound (n + 4) :=
  record_sound <| of_sound _ Controller.mk
    |>.defaulted text_sound (by decide)
    |>.required (ControllerSpec.codec_sound _) (by decide)
    |>.nullable (ControllerStatus.codec_sound _) (record_solid _) (by decide)

/-- A namespace may be without any of its three identifiers. -/
theorem NvmeNamespaceSpec.codec_sound (n : Nat) : NvmeNamespaceSpec.codec.Sound (n + 1) :=
  record_sound <| of_sound _ NvmeNamespaceSpec.mk
    |>.defaulted text_sound (by decide)
    |>.defaulted int32_sound (by decide)
    |>.required text_sound (by decide)
    |>.nullable text_sound text_solid (by decide)
    |>.nullable text_sound text_solid (by decide)
    |>.nullable text_sound text_solid (by decide)

/-- The state of a namespace is a word. -/
theorem OperState.codec_sound (n : Nat) : OperState.codec.Sound n :=
  word_sound (by rintro (_ | _ | _) <;> rfl)

theorem NvmeNamespaceStatus.codec_sound (n : Nat) : NvmeNamespaceStatus.codec.Sound (n + 1) :=
  record_sound <| of_sound _ NvmeNamespaceStatus.mk
    |>.required (OperState.codec_sound _) (by decide)

/-- Like a subsystem, a namespace may come without a name and without a report. -/
theorem NvmeNamespace.codec_sound (n : Nat) : NvmeNamespace.codec.Sound (n + 2) :=
  record_sound <| of_sound _ NvmeNamespace.mk
    |>.defaulted text_sound (by decide)
    |>.required (NvmeNamespaceSpec.codec_sound _) (by decide)
    |>.nullable (NvmeNamespaceStatus.codec_sound _) (record_solid _) (by decide)

/-! ## Virtio records -/

/-- A limit that is left out is zero, which is none. -/
theorem Limits.codec_sound (n : Nat) : Limits.codec.Sound (n + 1) :=
  record_sound <| of_sound _ Limits.mk
    |>.defaulted int64_sound (by decide)
    |>.defaulted int64_sound (by decide)
    |>.defaulted int64_sound (by decide)
    |>.defaulted int64_sound (by decide)

/-- A device may come without limits. -/
theorem VirtioBlk.codec_sound (n : Nat) : VirtioBlk.codec.Sound (n + 2) :=
  record_sound <| of_sound _ VirtioBlk.mk
    |>.defaulted text_sound (by decide)
    |>.defaulted (PciFunction.codec_sound _) (by decide)
    |>.required text_sound (by decide)
    |>.defaulted int64_sound (by decide)
    |>.nullable (Limits.codec_sound _) (record_solid _) (by decide)

/-- Everything about a SCSI controller may be left out. -/
theorem ScsiController.codec_sound (n : Nat) : ScsiController.codec.Sound (n + 2) :=
  record_sound <| of_sound _ ScsiController.mk
    |>.defaulted text_sound (by decide)
    |>.defaulted (PciFunction.codec_sound _) (by decide)
    |>.defaulted int32_sound (by decide)

/-- Of a unit only the volume has to be there. -/
theorem ScsiLun.codec_sound (n : Nat) : ScsiLun.codec.Sound (n + 1) :=
  record_sound <| of_sound _ ScsiLun.mk
    |>.defaulted text_sound (by decide)
    |>.defaulted text_sound (by decide)
    |>.required text_sound (by decide)
    |>.defaulted int32_sound (by decide)

/-- The records of every kind have at most four objects within one another. -/
theorem Kind.codec_sound (n : Nat) (k : Kind) :
    (Resource.codec : Codec k.Record).Sound (n + 4) := by
  cases k with
  | subsystem => exact Subsystem.codec_sound _
  | controller => exact Controller.codec_sound _
  | nvmeNamespace => exact NvmeNamespace.codec_sound _
  | virtioBlk => exact VirtioBlk.codec_sound _
  | scsiController => exact ScsiController.codec_sound _
  | scsiLun => exact ScsiLun.codec_sound _

/-! ## Counters -/

theorem VolumeStats.codec_sound (n : Nat) : VolumeStats.codec.Sound (n + 1) :=
  record_sound <| of_sound _ VolumeStats.mk
    |>.required int64_sound (by decide)
    |>.required int64_sound (by decide)
    |>.required int64_sound (by decide)
    |>.required int64_sound (by decide)
    |>.required int64_sound (by decide)
    |>.required int64_sound (by decide)

/-- The counters of a resource are written under its name. -/
theorem ResourceStats.codec_sound (n : Nat) : ResourceStats.codec.Sound (n + 2) :=
  record_sound <| of_sound _ ResourceStats.mk
    |>.required text_sound (by decide)
    |>.required (VolumeStats.codec_sound _) (by decide)

/-! ## Requests -/

/-- A request for a listing may be empty: then it asks for the first page, without a limit. -/
theorem ListRequest.codec_sound (n : Nat) : ListRequest.codec.Sound (n + 1) :=
  record_sound <| of_sound _ ListRequest.mk
    |>.defaulted text_sound (by decide)
    |>.defaulted int32_sound (by decide)
    |>.defaulted text_sound (by decide)

/-- A mask is an object with the list of its paths. -/
theorem FieldMask.codec_sound (n : Nat) : FieldMask.codec.Sound (n + 2) :=
  record_sound <| of_sound _ FieldMask.mk
    |>.defaulted text_sound.list (by decide)

/-- A deletion does not allow for a missing record unless it says so. -/
theorem DeleteRequest.codec_sound (n : Nat) : DeleteRequest.codec.Sound (n + 1) :=
  record_sound <| of_sound _ DeleteRequest.mk
    |>.required text_sound (by decide)
    |>.defaulted flag_sound (by decide)

section

variable {α : Type} {c : Codec α} {n : Nat}

/-- A page holds its items in a list, so it is two deeper than they are. -/
theorem Page.codec_sound (h : c.Sound n) : (Page.codec c).Sound (n + 2) :=
  record_sound <| of_sound _ Page.mk
    |>.required h.list (show "items" ∉ [] by decide)
    |>.required text_sound (show "nextPageToken" ∉ ["items"] by decide)

/-- An update is one deeper than its record, if the record has as much room as a mask needs. -/
theorem UpdateRequest.codec_sound (h : c.Sound (n + 2)) : (UpdateRequest.codec c).Sound (n + 3) :=
  record_sound <| of_sound _ UpdateRequest.mk
    |>.required h (show "resource" ∉ [] by decide)
    |>.nullable (FieldMask.codec_sound _) (record_solid _)
      (show "updateMask" ∉ ["resource"] by decide)
    |>.defaulted flag_sound (show "allowMissing" ∉ ["resource", "updateMask"] by decide)

end

/-! ## Configurations -/

namespace Config

/-- An address or a bound that a configuration leaves out is the default one. -/
theorem EngineLink.codec_sound (n : Nat) : EngineLink.codec.Sound (n + 1) :=
  record_sound <| of_sound _ EngineLink.mk
    |>.defaulted text_sound (by decide)
    |>.defaulted uint64_sound (by decide)

theorem Api.codec_sound (n : Nat) : Api.codec.Sound (n + 1) :=
  record_sound <| of_sound _ Api.mk
    |>.defaulted text_sound (by decide)

theorem FabricListener.codec_sound (n : Nat) : FabricListener.codec.Sound (n + 1) :=
  record_sound <| of_sound _ FabricListener.mk
    |>.defaulted text_sound (by decide)
    |>.defaulted text_sound (by decide)
    |>.defaulted (AddressFamily.codec_sound _) (by decide)

theorem SocketBase.codec_sound (n : Nat) : SocketBase.codec.Sound (n + 1) :=
  record_sound <| of_sound _ SocketBase.mk
    |>.defaulted text_sound (by decide)

/-- The settings of fabrics and of local functions are objects of their own. -/
theorem Transport.codec_sound (n : Nat) : Transport.codec.Sound (n + 2) :=
  record_sound <| of_sound _ Transport.mk
    |>.defaulted (FabricListener.codec_sound _) (by decide)
    |>.defaulted (SocketBase.codec_sound _) (by decide)

/-- A configuration may leave out everything. -/
theorem codec_sound (n : Nat) : codec.Sound (n + 3) :=
  record_sound <| of_sound _ mk
    |>.defaulted (EngineLink.codec_sound _) (by decide)
    |>.defaulted (Transport.codec_sound _) (by decide)
    |>.defaulted (Api.codec_sound _) (by decide)

end Config

/-! ## All types that go over the wire -/

/-- A type of values and the way they are written and read. -/
structure WireType where
  {α : Type}
  codec : Codec α

namespace WireType

/-- The records of a kind, pages of them and requests to update one. -/
def ofKind (k : Kind) : List WireType :=
  let c : Codec k.Record := Resource.codec
  [⟨c⟩, ⟨Page.codec c⟩, ⟨UpdateRequest.codec c⟩]

/-- What records are made of. -/
def parts : List WireType :=
  [⟨PciFunction.codec⟩, ⟨AddressFamily.codec⟩, ⟨FabricAddress.codec⟩, ⟨Endpoint.codec⟩,
    ⟨TransportKind.codec⟩, ⟨SubsystemSpec.codec⟩, ⟨SubsystemStatus.codec⟩, ⟨ControllerSpec.codec⟩,
    ⟨ControllerStatus.codec⟩, ⟨NvmeNamespaceSpec.codec⟩, ⟨OperState.codec⟩,
    ⟨NvmeNamespaceStatus.codec⟩, ⟨Limits.codec⟩, ⟨VolumeStats.codec⟩, ⟨ResourceStats.codec⟩]

/-- The requests that are the same for all kinds. -/
def requests : List WireType :=
  [⟨ListRequest.codec⟩, ⟨FieldMask.codec⟩, ⟨DeleteRequest.codec⟩]

/-- Configurations and their parts. -/
def settings : List WireType :=
  [⟨Config.codec⟩, ⟨Config.EngineLink.codec⟩, ⟨Config.Transport.codec⟩,
    ⟨Config.FabricListener.codec⟩, ⟨Config.SocketBase.codec⟩, ⟨Config.Api.codec⟩]

open Engine in
/-- The parameters of the engine's methods. -/
def parameters : List WireType :=
  [⟨CreateSubsystem.codec⟩, ⟨SubsystemRef.codec⟩, ⟨AddHost.codec⟩, ⟨ListenAddress.codec⟩,
    ⟨Listener.codec⟩, ⟨NamespaceParams.codec⟩, ⟨AddNamespace.codec⟩, ⟨RemoveNamespace.codec⟩,
    ⟨VolumeRef.codec⟩, ⟨VolumeLimits.codec⟩, ⟨CreateBlkController.codec⟩, ⟨VhostRef.codec⟩,
    ⟨VhostQuery.codec⟩, ⟨AddTarget.codec⟩, ⟨RemoveTarget.codec⟩]

open Engine in
/-- What the engine answers, but for listed subsystems. -/
def rows : List WireType :=
  [⟨VersionFields.codec⟩, ⟨Version.codec⟩, ⟨NamespaceRow.codec⟩, ⟨PollGroup.codec⟩,
    ⟨TargetStats.codec⟩, ⟨VolumeRow.codec⟩, ⟨VolumeReport.codec⟩, ⟨BlockBackend.codec⟩,
    ⟨TargetLun.codec⟩, ⟨TargetRow.codec⟩, ⟨Backend.codec⟩, ⟨VhostRow.codec⟩]

/-- The types without fields that may have any value. -/
def all : List WireType :=
  Kind.all.flatMap ofKind ++ parts ++ requests ++ settings ++ parameters ++ rows

end WireType

namespace Codec

variable {α : Type}

/-- What is written of the value is read as the value again, as it is and from its text. -/
structure Recovers (c : Codec α) (a : α) : Prop where
  decode : c.decode (c.encode a) = some a
  read : c.read (Text.bytes (c.encode a).print) = .found a []

/-- A value that is read back and that fits into what the reader has room for is recovered. -/
theorem recovers_of_fits {c : Codec α} (hlawful : c.Lawful) {a : α}
    (hfits : Shape.Fits Json.Reader.depthLimit c.shape (c.encode a)) : c.Recovers a where
  decode := hlawful a
  read := by
    have hread := read_print hlawful hfits Json.Reader.ends_nil
    rwa [List.append_nil] at hread

/-- All values of a type whose codec is sound are recovered. -/
theorem Sound.recovers {c : Codec α} (h : c.Sound Json.Reader.depthLimit) (a : α) : c.Recovers a :=
  recovers_of_fits h.lawful (h.fits a)

end Codec

namespace WireType

/-- Every type without fields that may have any value is sound in what the reader has room for. -/
theorem sound_of_mem {w : WireType} (h : w ∈ all) : w.codec.Sound Json.Reader.depthLimit := by
  revert w
  simp only [all, List.forall_mem_append, parts, requests, settings, parameters, rows,
    List.forall_mem_cons]
  refine ⟨⟨⟨⟨⟨?_, ?_⟩, ?_⟩, ?_⟩, ?_⟩, ?_⟩
  · intro w hw
    obtain ⟨k, -, hw⟩ := List.mem_flatMap.1 hw
    simp only [ofKind, List.mem_cons, List.not_mem_nil, or_false] at hw
    rcases hw with rfl | rfl | rfl
    · exact k.codec_sound _
    · exact Page.codec_sound (k.codec_sound _)
    · exact UpdateRequest.codec_sound (k.codec_sound _)
  · exact ⟨PciFunction.codec_sound _, AddressFamily.codec_sound _, FabricAddress.codec_sound _,
      Endpoint.codec_sound _, TransportKind.codec_sound _, SubsystemSpec.codec_sound _,
      SubsystemStatus.codec_sound _, ControllerSpec.codec_sound _, ControllerStatus.codec_sound _,
      NvmeNamespaceSpec.codec_sound _, OperState.codec_sound _, NvmeNamespaceStatus.codec_sound _,
      Limits.codec_sound _, VolumeStats.codec_sound _, ResourceStats.codec_sound _,
      List.forall_mem_nil _⟩
  · exact ⟨ListRequest.codec_sound _, FieldMask.codec_sound _, DeleteRequest.codec_sound _,
      List.forall_mem_nil _⟩
  · exact ⟨Config.codec_sound _, Config.EngineLink.codec_sound _, Config.Transport.codec_sound _,
      Config.FabricListener.codec_sound _, Config.SocketBase.codec_sound _,
      Config.Api.codec_sound _,
      List.forall_mem_nil _⟩
  · exact ⟨Engine.CreateSubsystem.codec_sound _, Engine.SubsystemRef.codec_sound _,
      Engine.AddHost.codec_sound _, Engine.ListenAddress.codec_sound _,
      Engine.Listener.codec_sound _, Engine.NamespaceParams.codec_sound _,
      Engine.AddNamespace.codec_sound _, Engine.RemoveNamespace.codec_sound _,
      Engine.VolumeRef.codec_sound _, Engine.VolumeLimits.codec_sound _,
      Engine.CreateBlkController.codec_sound _, Engine.VhostRef.codec_sound _,
      Engine.VhostQuery.codec_sound _, Engine.AddTarget.codec_sound _,
      Engine.RemoveTarget.codec_sound _,
      List.forall_mem_nil _⟩
  · exact ⟨Engine.VersionFields.codec_sound _, Engine.Version.codec_sound _,
      Engine.NamespaceRow.codec_sound _, Engine.PollGroup.codec_sound _,
      Engine.TargetStats.codec_sound _, Engine.VolumeRow.codec_sound _,
      Engine.VolumeReport.codec_sound _, Engine.BlockBackend.codec_sound _,
      Engine.TargetLun.codec_sound _, Engine.TargetRow.codec_sound _,
      Engine.Backend.codec_sound _, Engine.VhostRow.codec_sound _,
      List.forall_mem_nil _⟩

/-- Every value of every type is recovered, so also what is accepted as one, be it a value or a
text. Of listed subsystems every one is read back from what is written of it, and recovered if its
hosts fit into what the reader has room for within a list in an object. -/
theorem recovered :
    (∀ w ∈ all, (∀ a, w.codec.Recovers a) ∧
      (∀ v a, w.codec.decode v = some a → w.codec.Recovers a) ∧
      ∀ bs a rest, w.codec.read bs = .found a rest → w.codec.Recovers a) ∧
    Engine.SubsystemRow.codec.Lawful ∧
    ∀ row : Engine.SubsystemRow,
      (∀ host ∈ row.hosts, Shape.Fits (Json.Reader.depthLimit - 2) .any host) →
        Engine.SubsystemRow.codec.Recovers row := by
  obtain ⟨hlawful, hfits⟩ := Engine.SubsystemRow.codec_sound (Json.Reader.depthLimit - 3)
  refine ⟨fun w hw => ?_, hlawful, fun row hhosts => Codec.recovers_of_fits hlawful ?_⟩
  · have hrecovers := (sound_of_mem hw).recovers
    exact ⟨hrecovers, fun _ a _ => hrecovers a, fun _ a _ _ => hrecovers a⟩
  · exact hfits row hhosts

end WireType

end StorageControl
