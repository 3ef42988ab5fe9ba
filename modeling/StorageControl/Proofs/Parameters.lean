/-
# Parameters and rows are read as they are written

The parameters of the engine's methods are read by the engine as they were given to it, and what the
engine answers, its version and the rows of its listings, is read as the engine wrote it.
-/
import StorageControl.Engine.Row
import StorageControl.Proofs.Sound

namespace StorageControl.Engine

open Codec (text_sound text_solid flag_sound flag_solid int32_sound int32_solid int64_sound)
open Codec (free_lawful lawful_and_fits list_lawful list_solid record_sound record_solid)
open Codec.Fields (of_sound)

/-! ## Version -/

/-- A version without a suffix is one with an empty suffix. -/
theorem VersionFields.codec_sound (n : Nat) : VersionFields.codec.Sound (n + 1) :=
  record_sound <| of_sound _ VersionFields.mk
    |>.required int64_sound (by decide)
    |>.required int64_sound (by decide)
    |>.required int64_sound (by decide)
    |>.defaulted text_sound (by decide)

/-- The parts of a version are an object in it, which may be left out. -/
theorem Version.codec_sound (n : Nat) : Version.codec.Sound (n + 2) :=
  record_sound <| of_sound _ Version.mk
    |>.required text_sound (by decide)
    |>.defaulted (VersionFields.codec_sound _) (by decide)

/-! ## Subsystems -/

/-- All five parameters of a creation are always written, and none may be left out. -/
theorem CreateSubsystem.codec_sound (n : Nat) : CreateSubsystem.codec.Sound (n + 1) :=
  record_sound <| of_sound _ CreateSubsystem.mk
    |>.required text_sound (by decide)
    |>.required text_sound (by decide)
    |>.required text_sound (by decide)
    |>.required flag_sound (by decide)
    |>.required int64_sound (by decide)

theorem SubsystemRef.codec_sound (n : Nat) : SubsystemRef.codec.Sound (n + 1) :=
  record_sound <| of_sound _ SubsystemRef.mk
    |>.required text_sound (by decide)

/-- A host without a key is written without the member for it, not with null. -/
theorem AddHost.codec_sound (n : Nat) : AddHost.codec.Sound (n + 1) :=
  record_sound <| of_sound _ AddHost.mk
    |>.required text_sound (by decide)
    |>.required text_sound (by decide)
    |>.omittable text_sound text_solid (by decide)

/-! ## Listeners -/

/-- An empty address family is left out, and one that is left out is empty. -/
theorem ListenAddress.codec_sound (n : Nat) : ListenAddress.codec.Sound (n + 1) :=
  record_sound <| of_sound _ ListenAddress.mk
    |>.required text_sound (by decide)
    |>.required text_sound (by decide)
    |>.defaulted text_sound (by decide)
    |>.omittableText (by decide)

/-- The address of a listener is an object in it. Whether the channel is secure may be left open. -/
theorem Listener.codec_sound (n : Nat) : Listener.codec.Sound (n + 2) :=
  record_sound <| of_sound _ Listener.mk
    |>.required text_sound (by decide)
    |>.required (ListenAddress.codec_sound _) (by decide)
    |>.omittable flag_sound flag_solid (by decide)

/-! ## Namespaces -/

/-- Of the numbers and identifiers of a new namespace only those that are asked for are written. -/
theorem NamespaceParams.codec_sound (n : Nat) : NamespaceParams.codec.Sound (n + 1) :=
  record_sound <| of_sound _ NamespaceParams.mk
    |>.omittable int32_sound int32_solid (by decide)
    |>.required text_sound (by decide)
    |>.omittable text_sound text_solid (by decide)
    |>.omittable text_sound text_solid (by decide)
    |>.omittable text_sound text_solid (by decide)

/-- The volume to be attached is an object in the parameters. -/
theorem AddNamespace.codec_sound (n : Nat) : AddNamespace.codec.Sound (n + 2) :=
  record_sound <| of_sound _ AddNamespace.mk
    |>.required text_sound (by decide)
    |>.required (NamespaceParams.codec_sound _) (by decide)

theorem RemoveNamespace.codec_sound (n : Nat) : RemoveNamespace.codec.Sound (n + 1) :=
  record_sound <| of_sound _ RemoveNamespace.mk
    |>.required text_sound (by decide)
    |>.required int32_sound (by decide)

/-- Identifiers that a listed namespace does not have may be null or left out; they are written as
null. -/
theorem NamespaceRow.codec_sound (n : Nat) : NamespaceRow.codec.Sound (n + 1) :=
  record_sound <| of_sound _ NamespaceRow.mk
    |>.required int32_sound (by decide)
    |>.defaulted text_sound (by decide)
    |>.defaulted text_sound (by decide)
    |>.nullable text_sound text_solid (by decide)
    |>.nullable text_sound text_solid (by decide)
    |>.nullable text_sound text_solid (by decide)

/-- Listed subsystems are read as they are written. What is written of one fits if its hosts do,
which may be any values. -/
theorem SubsystemRow.codec_sound (n : Nat) : SubsystemRow.codec.Lawful ∧
    ∀ row : SubsystemRow, (∀ host ∈ row.hosts, Shape.Fits (n + 1) .any host) →
      Shape.Fits (n + 3) SubsystemRow.codec.shape (SubsystemRow.codec.encode row) :=
  lawful_and_fits <| of_sound
      (fun row : SubsystemRow => ∀ host ∈ row.hosts, Shape.Fits (n + 1) .any host) SubsystemRow.mk
    |>.required text_sound (by decide)
    |>.defaulted text_sound (by decide)
    |>.defaulted (ListenAddress.codec_sound _).list (by decide)
    |>.defaulted flag_sound (by decide)
    |>.defaultedOf (list_lawful free_lawful)
      (fun _ hfits => .list (.inl rfl) (List.forall_mem_map.2 hfits)) (by decide)
    |>.defaulted text_sound (by decide)
    |>.defaulted text_sound (by decide)
    |>.defaulted int64_sound (by decide)
    |>.defaulted (NamespaceRow.codec_sound _).list (by decide)

/-! ## Target counters -/

/-- Every counter of a poll group is zero if it is left out. -/
theorem PollGroup.codec_sound (n : Nat) : PollGroup.codec.Sound (n + 1) :=
  record_sound <| of_sound _ PollGroup.mk
    |>.required text_sound (by decide)
    |>.defaulted int64_sound (by decide)
    |>.defaulted int64_sound (by decide)
    |>.defaulted int64_sound (by decide)
    |>.defaulted int64_sound (by decide)
    |>.defaulted int64_sound (by decide)

/-- The poll groups are a list of objects in the counters of the target. -/
theorem TargetStats.codec_sound (n : Nat) : TargetStats.codec.Sound (n + 3) :=
  record_sound <| of_sound _ TargetStats.mk
    |>.defaulted int64_sound (by decide)
    |>.defaulted (PollGroup.codec_sound _).list (by decide)

/-! ## Volumes -/

theorem VolumeRef.codec_sound (n : Nat) : VolumeRef.codec.Sound (n + 1) :=
  record_sound <| of_sound _ VolumeRef.mk
    |>.required text_sound (by decide)

/-- Every counter of a volume is zero if it is left out. -/
theorem VolumeRow.codec_sound (n : Nat) : VolumeRow.codec.Sound (n + 1) :=
  record_sound <| of_sound _ VolumeRow.mk
    |>.required text_sound (by decide)
    |>.defaulted int64_sound (by decide)
    |>.defaulted int64_sound (by decide)
    |>.defaulted int64_sound (by decide)
    |>.defaulted int64_sound (by decide)
    |>.defaulted int64_sound (by decide)
    |>.defaulted int64_sound (by decide)

/-- The volumes are a list of objects in a report. -/
theorem VolumeReport.codec_sound (n : Nat) : VolumeReport.codec.Sound (n + 3) :=
  record_sound <| of_sound _ VolumeReport.mk
    |>.defaulted int64_sound (by decide)
    |>.defaulted int64_sound (by decide)
    |>.defaulted (VolumeRow.codec_sound _).list (by decide)

/-- All four limits are written, since a zero lifts a limit that is in force. -/
theorem VolumeLimits.codec_sound (n : Nat) : VolumeLimits.codec.Sound (n + 1) :=
  record_sound <| of_sound _ VolumeLimits.mk
    |>.required text_sound (by decide)
    |>.required int64_sound (by decide)
    |>.required int64_sound (by decide)
    |>.required int64_sound (by decide)
    |>.required int64_sound (by decide)

/-! ## vhost controllers -/

theorem CreateBlkController.codec_sound (n : Nat) : CreateBlkController.codec.Sound (n + 1) :=
  record_sound <| of_sound _ CreateBlkController.mk
    |>.required text_sound (by decide)
    |>.required text_sound (by decide)

theorem VhostRef.codec_sound (n : Nat) : VhostRef.codec.Sound (n + 1) :=
  record_sound <| of_sound _ VhostRef.mk
    |>.required text_sound (by decide)

/-- A question without a name is one for all controllers. -/
theorem VhostQuery.codec_sound (n : Nat) : VhostQuery.codec.Sound (n + 1) :=
  record_sound <| of_sound _ VhostQuery.mk
    |>.omittable text_sound text_solid (by decide)

theorem AddTarget.codec_sound (n : Nat) : AddTarget.codec.Sound (n + 1) :=
  record_sound <| of_sound _ AddTarget.mk
    |>.required text_sound (by decide)
    |>.required int32_sound (by decide)
    |>.required text_sound (by decide)

theorem RemoveTarget.codec_sound (n : Nat) : RemoveTarget.codec.Sound (n + 1) :=
  record_sound <| of_sound _ RemoveTarget.mk
    |>.required text_sound (by decide)
    |>.required int32_sound (by decide)

/-- Of a block backend everything may be left out. -/
theorem BlockBackend.codec_sound (n : Nat) : BlockBackend.codec.Sound (n + 1) :=
  record_sound <| of_sound _ BlockBackend.mk
    |>.defaulted text_sound (by decide)
    |>.defaulted flag_sound (by decide)

theorem TargetLun.codec_sound (n : Nat) : TargetLun.codec.Sound (n + 1) :=
  record_sound <| of_sound _ TargetLun.mk
    |>.required int32_sound (by decide)
    |>.required text_sound (by decide)

/-- The units of a target are a list of objects in its row. -/
theorem TargetRow.codec_sound (n : Nat) : TargetRow.codec.Sound (n + 3) :=
  record_sound <| of_sound _ TargetRow.mk
    |>.required int32_sound (by decide)
    |>.defaulted int32_sound (by decide)
    |>.defaulted text_sound (by decide)
    |>.defaulted (TargetLun.codec_sound _).list (by decide)

/-- A backend is one of a block device, one of a SCSI bus with its list of targets, or neither. What
it is not is written as null. -/
theorem Backend.codec_sound (n : Nat) : Backend.codec.Sound (n + 5) :=
  record_sound <| of_sound _ Backend.mk
    |>.nullable (BlockBackend.codec_sound _) (record_solid _) (by decide)
    |>.nullable (TargetRow.codec_sound _).list (list_solid _) (by decide)

/-- The row of a vhost controller is the deepest of all: its targets have units, two lists further
in. -/
theorem VhostRow.codec_sound (n : Nat) : VhostRow.codec.Sound (n + 6) :=
  record_sound <| of_sound _ VhostRow.mk
    |>.required text_sound (by decide)
    |>.defaulted text_sound (by decide)
    |>.defaulted text_sound (by decide)
    |>.defaulted (Backend.codec_sound _) (by decide)

end StorageControl.Engine
