/-
# Field masks

A field mask lists the paths of the fields that an update changes; without paths, or with nothing
but the wildcard, the update replaces the whole record. Paths are written with dots, and a
segment may be written with underscores in place of inner capitals. The name of a record never
changes.
-/
import StorageControl.Fault
import StorageControl.Record
import StorageControl.Record.Request
import StorageControl.Text.Uppercase

namespace StorageControl

/-! ## Paths -/

/-- A path segment as it is spelled on the wire: each character after underscores is in upper
case, and the underscores are gone. -/
def wireSegment (raise : Bool) : List Char → List Char
  | [] => []
  | c :: rest =>
    if c = '_' then wireSegment true rest
    else if raise then Text.upper c ++ wireSegment false rest
    else c :: wireSegment false rest

namespace FieldMask

/-- The path that selects every field. -/
def wildcard : String := "*"

/-- The keys of a path, as they are spelled on the wire. -/
def keys (path : String) : List String :=
  (Text.cut '.' path.toList).map fun segment => String.ofList (wireSegment false segment)

/-- The mask replaces the whole record. -/
def isFullReplace (mask : FieldMask) : Bool :=
  mask.paths.all (· == wildcard)

/-! ## Checks -/

/-- A path must lead to a field of the update, and not to the name. -/
def checkPath (update : Json) (path : String) : Except Rejection Unit :=
  let ks := keys path
  if path = wildcard then .error .wildcardAmongPaths
  else if ks.any String.isEmpty then .error (.malformedPath path)
  else if ks = ["name"] then .error .namePath
  else if (Json.lookup? ks update).isNone then .error (.unknownPath path)
  else .ok ()

/-- Checks paths in turn. -/
def checkPaths (update : Json) : List String → Except Rejection Unit
  | [] => .ok ()
  | path :: rest => do
    checkPath update path
    checkPaths update rest

/-- A mask must replace the whole record or hold paths of fields of the update. -/
def check (mask : FieldMask) (update : Json) : Except Rejection Unit :=
  if mask.isFullReplace then .ok () else checkPaths update mask.paths

/-! ## Merging -/

/-- Copies the value at a path from one value into another. -/
def copyPath (source target : Json) (path : String) : Json :=
  match Json.lookup? (keys path) source with
  | some v => Json.assign v (keys path) target
  | none => target

/-- The mask, if it selects some fields only. -/
def selective? (mask : Option FieldMask) : Option FieldMask :=
  mask.filter fun m => !m.isFullReplace

/-- The record that an update makes of an existing one. The name of the existing one stays. -/
def merge {ρ : Type} [Resource ρ] (existing update : ρ) (mask : Option FieldMask) :
    Except Rejection ρ :=
  let name := Resource.name existing
  match selective? mask with
  | none => .ok (Resource.rename name update)
  | some mask => do
    let codec := Resource.codec (ρ := ρ)
    let source := codec.encode update
    mask.check source
    match codec.decode (mask.paths.foldl (copyPath source) (codec.encode existing)) with
    | some merged => .ok (Resource.rename name merged)
    | none => .error .mergeUnfit

end FieldMask

end StorageControl
