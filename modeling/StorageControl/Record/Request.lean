/-
# Requests for records

What a caller sends to list, update or delete records, and the page that answers a listing.
-/
import StorageControl.Json.Codec

namespace StorageControl

open Codec (Fields)

/-! ## Listings -/

/-- Asks for a page of the children of a parent, which is empty for kinds without parent. -/
structure ListRequest where
  parent : String := ""
  pageSize : Int32 := 0
  pageToken : String := ""
deriving DecidableEq, Repr, Inhabited

/-- List requests on the wire. -/
def ListRequest.codec : Codec ListRequest :=
  .record <| (Fields.of ListRequest ListRequest.mk)
    |>.defaulted "parent" .text (·.parent) ""
    |>.defaulted "pageSize" .int32 (·.pageSize) 0
    |>.defaulted "pageToken" .text (·.pageToken) ""

/-- A page of a listing; the token is empty on the last one. -/
structure Page (α : Type) where
  items : List α
  nextPageToken : String
deriving DecidableEq, Repr

/-- Pages on the wire. -/
def Page.codec {α : Type} (c : Codec α) : Codec (Page α) :=
  .record <| (Fields.of (Page α) Page.mk)
    |>.required "items" c.list (·.items)
    |>.required "nextPageToken" .text (·.nextPageToken)

/-! ## Updates -/

/-- The paths of the fields that an update may change. -/
structure FieldMask where
  paths : List String := []
deriving DecidableEq, Repr, Inhabited

/-- Field masks on the wire. -/
def FieldMask.codec : Codec FieldMask :=
  .record <| (Fields.of FieldMask FieldMask.mk)
    |>.defaulted "paths" Codec.text.list (·.paths) []

/-- Asks to change a record, or to create it if it is missing and that is allowed. -/
structure UpdateRequest (α : Type) where
  resource : α
  updateMask : Option FieldMask := none
  allowMissing : Bool := false
deriving DecidableEq, Repr

/-- Update requests on the wire. -/
def UpdateRequest.codec {α : Type} (c : Codec α) : Codec (UpdateRequest α) :=
  .record <| (Fields.of (UpdateRequest α) UpdateRequest.mk)
    |>.required "resource" c (·.resource)
    |>.nullable "updateMask" FieldMask.codec (·.updateMask)
    |>.defaulted "allowMissing" .flag (·.allowMissing) false

/-! ## Deletions -/

/-- Asks to delete a record, which may be missing if that is allowed. -/
structure DeleteRequest where
  name : String
  allowMissing : Bool := false
deriving DecidableEq, Repr, Inhabited

/-- Delete requests on the wire. -/
def DeleteRequest.codec : Codec DeleteRequest :=
  .record <| (Fields.of DeleteRequest DeleteRequest.mk)
    |>.required "name" .text (·.name)
    |>.defaulted "allowMissing" .flag (·.allowMissing) false

end StorageControl
