/-
# Values of the wire format

The engine, the callers and the configuration all speak JSON. A value is null, a truth value, a
number, a text, a list or an object; the members of an object stand in the order of their keys.
Whole numbers are kept exactly, all other numbers as the bits of a binary64 value.
-/
import StorageControl.Assoc
import StorageControl.Text.Segments

namespace StorageControl

/-! ## Numbers and values -/

/-- A number: a whole one, or the bits of a binary64 value. -/
inductive Number where
  | whole (n : Int)
  | real (bits : UInt64)
deriving DecidableEq, Repr, Inhabited

/-- A JSON value. -/
inductive Json where
  | null
  | bool (b : Bool)
  | num (n : Number)
  | str (s : String)
  | arr (items : List Json)
  | obj (members : List (String × Json))
deriving Repr, Inhabited

namespace Json

/-! ## Equality -/

mutual

/-- Decides whether two values are equal. -/
def decEq : (a b : Json) → Decidable (a = b)
  | .null, .null => isTrue rfl
  | .bool a, .bool b =>
    if h : a = b then isTrue (h ▸ rfl) else isFalse (fun e => h (Json.bool.inj e))
  | .num a, .num b =>
    if h : a = b then isTrue (h ▸ rfl) else isFalse (fun e => h (Json.num.inj e))
  | .str a, .str b =>
    if h : a = b then isTrue (h ▸ rfl) else isFalse (fun e => h (Json.str.inj e))
  | .arr a, .arr b =>
    match decEqItems a b with
    | isTrue h => isTrue (h ▸ rfl)
    | isFalse h => isFalse (fun e => h (Json.arr.inj e))
  | .obj a, .obj b =>
    match decEqMembers a b with
    | isTrue h => isTrue (h ▸ rfl)
    | isFalse h => isFalse (fun e => h (Json.obj.inj e))
  | .null, .bool _ | .null, .num _ | .null, .str _ | .null, .arr _ | .null, .obj _
  | .bool _, .null | .bool _, .num _ | .bool _, .str _ | .bool _, .arr _ | .bool _, .obj _
  | .num _, .null | .num _, .bool _ | .num _, .str _ | .num _, .arr _ | .num _, .obj _
  | .str _, .null | .str _, .bool _ | .str _, .num _ | .str _, .arr _ | .str _, .obj _
  | .arr _, .null | .arr _, .bool _ | .arr _, .num _ | .arr _, .str _ | .arr _, .obj _
  | .obj _, .null | .obj _, .bool _ | .obj _, .num _ | .obj _, .str _ | .obj _, .arr _ =>
    isFalse nofun

/-- Decides whether two lists of values are equal. -/
def decEqItems : (a b : List Json) → Decidable (a = b)
  | [], [] => isTrue rfl
  | [], _ :: _ => isFalse nofun
  | _ :: _, [] => isFalse nofun
  | x :: xs, y :: ys =>
    match decEq x y, decEqItems xs ys with
    | isTrue h, isTrue h' => isTrue (h ▸ h' ▸ rfl)
    | isFalse h, _ => isFalse (fun e => h (List.cons.inj e).1)
    | _, isFalse h => isFalse (fun e => h (List.cons.inj e).2)

/-- Decides whether two lists of members are equal. -/
def decEqMembers : (a b : List (String × Json)) → Decidable (a = b)
  | [], [] => isTrue rfl
  | [], _ :: _ => isFalse nofun
  | _ :: _, [] => isFalse nofun
  | (k, x) :: xs, (l, y) :: ys =>
    if h : k = l then
      match decEq x y, decEqMembers xs ys with
      | isTrue h', isTrue h'' => isTrue (h ▸ h' ▸ h'' ▸ rfl)
      | isFalse h', _ => isFalse (fun e => h' (Prod.mk.inj (List.cons.inj e).1).2)
      | _, isFalse h' => isFalse (fun e => h' (List.cons.inj e).2)
    else isFalse (fun e => h (Prod.mk.inj (List.cons.inj e).1).1)

end

instance : DecidableEq Json := decEq

/-! ## Objects -/

/-- The object with the given members; of two with one key the later one stays. -/
def object (members : List (String × Json)) : Json :=
  .obj (Assoc.ofList members)

/-- The whole number `n`. -/
def ofInt (n : Int) : Json :=
  .num (.whole n)

/-- The value of a member of an object. -/
def member? (key : String) : Json → Option Json
  | .obj members => Assoc.find? key members
  | _ => none

/-! ## Paths -/

/-- The value at a path of keys. -/
def lookup? : List String → Json → Option Json
  | [], v => some v
  | key :: path, v => (v.member? key).bind (lookup? path)

/-- The members of a value; a value that is no object counts as one without members. -/
def members : Json → List (String × Json)
  | .obj members => members
  | _ => []

/-- Puts `new` at a path of keys. What stands on the way and is no object becomes one. -/
def assign (new : Json) : List String → Json → Json
  | [], _ => new
  | key :: path, v =>
    .obj (Assoc.insert key (assign new path ((v.member? key).getD (.obj []))) v.members)

/-! ## Small facts -/

/-- What was put at a path is found there. -/
theorem lookup?_assign (new : Json) (path : List String) (v : Json) :
    lookup? path (assign new path v) = some new := by
  induction path generalizing v with
  | nil => rfl
  | cons key path ih => simp [lookup?, assign, member?, ih]

end Json

end StorageControl
