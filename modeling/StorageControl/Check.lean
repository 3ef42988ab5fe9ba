/-
# Checks of a request

The checks that a request has to pass before anything else happens. Each gives the reason for
which the request is turned down, and none of them asks the engine.
-/
import StorageControl.Fault
import StorageControl.Text.Blank

namespace StorageControl.Check

/-! ## Ids -/

/-- A small letter of the Latin alphabet or a digit. -/
def isIdChar (c : Char) : Bool :=
  ('a' ≤ c && c ≤ 'z') || ('0' ≤ c && c ≤ '9')

/-- How long an id may be. -/
def idLengthBound : Nat := 63

/-- Small letters, digits and hyphens, with no hyphen at either end, and not too many of them. -/
def isId (s : String) : Bool :=
  match s.toList with
  | [] => false
  | c :: rest =>
    isIdChar c && rest.all (fun d => isIdChar d || d == '-') &&
      isIdChar ((c :: rest).getLast (by simp)) && decide (rest.length < idLengthBound)

/-- A caller's id must be well formed. -/
def id (s : String) : Except Rejection Unit :=
  if isId s then .ok () else .error (.malformedId s)

/-! ## Fields and names -/

/-- A required field must hold more than white space. -/
def required (field value : String) : Except Rejection Unit :=
  if Text.isBlankText value then .error (.missingField field) else .ok ()

/-- A name must be one of the kind. -/
def nameOf (kind : Kind) (name : String) : Except Rejection Unit := do
  required "name" name
  if Name.kind? name = some kind then .ok () else .error (.notANameOf kind name)

/-! ## Qualified names -/

/-- How many bytes an NVMe qualified name may have. -/
def nqnLengthBound : Nat := 223

/-- A qualified name starts with its mark and is not too long. -/
def nqn (s : String) : Except Rejection Unit := do
  required "spec.nqn" s
  if (Text.dropStart? ['n', 'q', 'n', '.'] s.toList).isNone then .error (.foreignNqn s)
  else if s.utf8ByteSize > nqnLengthBound then .error (.longNqn s)
  else .ok ()

end StorageControl.Check
