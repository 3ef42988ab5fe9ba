/-
# Names of resources

A resource is named by a path under a fixed authority: the collection of its kind and its own id,
and for a nested kind the collection and id of its parent before these. Names are put together
from ids and taken apart again.
-/
import StorageControl.Json.Codec

namespace StorageControl

/-! ## Kinds -/

/-- The kinds of resources. -/
inductive Kind where
  | subsystem
  | controller
  | nvmeNamespace
  | virtioBlk
  | scsiController
  | scsiLun
deriving DecidableEq, Repr, Inhabited

namespace Kind

/-- Every kind. -/
def all : List Kind :=
  [.subsystem, .controller, .nvmeNamespace, .virtioBlk, .scsiController, .scsiLun]

/-- The path segment under which resources of the kind are collected. -/
def collection : Kind → String
  | .subsystem => "subsystems"
  | .controller => "controllers"
  | .nvmeNamespace => "namespaces"
  | .virtioBlk => "virtioBlks"
  | .scsiController => "scsiControllers"
  | .scsiLun => "scsiLuns"

/-- The kind of the resources that own those of a nested kind. -/
def parent? : Kind → Option Kind
  | .controller | .nvmeNamespace => some .subsystem
  | .scsiLun => some .scsiController
  | _ => none

/-- The kind in messages. -/
def label : Kind → String
  | .subsystem => "subsystem"
  | .controller => "controller"
  | .nvmeNamespace => "namespace"
  | .virtioBlk => "virtio-blk"
  | .scsiController => "scsi-controller"
  | .scsiLun => "scsi-lun"

/-- The kind on the wire. -/
def word : Kind → String
  | .subsystem => "subsystem"
  | .controller => "controller"
  | .nvmeNamespace => "namespace"
  | .virtioBlk => "virtioBlk"
  | .scsiController => "scsiController"
  | .scsiLun => "scsiLun"

/-- Kinds on the wire. -/
def codec : Codec Kind :=
  .word word (all.map fun k => (k.word, k))

end Kind

/-! ## Putting names together -/

namespace Name

/-- The authority that every name starts with. -/
def authority : String := "//storage.bridge.dev"

/-- The name of a resource of a kind. The parent's id is not used for kinds without parent. -/
def compose (kind : Kind) (parentId ownId : String) : String :=
  match kind.parent? with
  | some parent =>
    authority ++ "/" ++ parent.collection ++ "/" ++ parentId ++ "/" ++ kind.collection ++ "/" ++
      ownId
  | none => authority ++ "/" ++ kind.collection ++ "/" ++ ownId

/-! ## Taking names apart -/

/-- The segment after the first one that equals `collection`, or nothing. -/
def segmentAfter (collection : String) : List String → String
  | [] => ""
  | segment :: rest => if segment = collection then rest.headD "" else segmentAfter collection rest

/-- The id that follows a collection in a name, or the empty text. -/
def idIn (name collection : String) : String :=
  segmentAfter collection (Text.segments '/' name)

/-- The id of the subsystem that a name belongs to, or the empty text. -/
def subsystemId (name : String) : String :=
  idIn name Kind.subsystem.collection

/-- The last segment of a name. -/
def ownId (name : String) : String :=
  (Text.segments '/' name).getLastD ""

/-- The name of the parent of a resource of a nested kind, read off the resource's name. -/
def parent? (kind : Kind) (name : String) : Option String :=
  match kind.parent? with
  | none => none
  | some parent =>
    let id := idIn name parent.collection
    if id.isEmpty then none else some (compose parent "" id)

/-- The kind that the segments after the authority belong to, if none of them is empty. -/
def kindOfSegments? (segments : List String) : Option Kind :=
  if segments.any String.isEmpty then none
  else
    match segments with
    | [c, _] =>
      if c = Kind.subsystem.collection then some .subsystem
      else if c = Kind.virtioBlk.collection then some .virtioBlk
      else if c = Kind.scsiController.collection then some .scsiController
      else none
    | [p, _, c, _] =>
      if p = Kind.subsystem.collection then
        if c = Kind.controller.collection then some .controller
        else if c = Kind.nvmeNamespace.collection then some .nvmeNamespace
        else none
      else if p = Kind.scsiController.collection ∧ c = Kind.scsiLun.collection then some .scsiLun
      else none
    | _ => none

/-- The kind of the resource that a name names, if it names one. -/
def kind? (name : String) : Option Kind :=
  match Text.dropStart? (authority ++ "/").toList name.toList with
  | none => none
  | some rest => kindOfSegments? (Text.segments '/' (String.ofList rest))

end Name

end StorageControl
