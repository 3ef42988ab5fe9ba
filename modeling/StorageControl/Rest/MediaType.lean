/-
# Media types

The type of a body is a type and a subtype, which may have a suffix after a plus sign. Parameters
may follow, and they have to be well formed.
-/
import StorageControl.Rest.Target

namespace StorageControl.Rest

/-! ## Tokens -/

/-- A character of a token: a visible one that is no separator. -/
def isTokenChar (c : Char) : Bool :=
  isAlphanumeric c ||
    ['!', '#', '$', '%', '&', '\'', '*', '+', '-', '.', '^', '_', '\x60', '|', '~'].contains c

/-- The token in front of a text, and the rest. -/
def splitToken (s : List Char) : List Char × List Char :=
  (s.takeWhile isTokenChar, s.dropWhile isTokenChar)

/-- A small letter for a capital one. -/
def lower (c : Char) : Char :=
  if 'A' ≤ c && c ≤ 'Z' then Char.ofNat (c.toNat + 32) else c

/-! ## Parameters -/

/-- How far the parameters of a media type have been read. -/
inductive ParameterScan where
  /-- A parameter may start here. -/
  | start
  /-- Inside a name. -/
  | name
  /-- A value starts here. -/
  | value
  /-- Inside a value without quotes. -/
  | token
  /-- After the opening quote. -/
  | opened
  /-- Inside a quoted value. -/
  | quoted
  /-- After the closing quote. -/
  | closed
deriving DecidableEq, Repr

/-- A character that may stand in a quoted value. -/
def isQuotedChar (c : Char) : Bool :=
  31 < c.toNat && c.toNat ≠ 127

/-- One more character of the parameters. The character after the opening quote never closes. -/
def ParameterScan.step : ParameterScan → Char → Option ParameterScan
  | .start, c => if c = ' ' then some .start else if isTokenChar c then some .name else none
  | .name, c => if c = '=' then some .value else if isTokenChar c then some .name else none
  | .value, c => if c = '"' then some .opened else if isTokenChar c then some .token else none
  | .token, c => if c = ';' then some .start else if isTokenChar c then some .token else none
  | .opened, c => if isQuotedChar c then some .quoted else none
  | .quoted, c => if c = '"' then some .closed else if isQuotedChar c then some .quoted else none
  | .closed, c => if c = ';' then some .start else if c = ' ' then some .closed else none

/-- The parameters may end here. -/
def ParameterScan.mayEnd : ParameterScan → Bool
  | .start | .value | .token | .closed => true
  | .name | .opened | .quoted => false

/-- The parameters after a semicolon are well formed. -/
def areParameters (s : List Char) : Bool :=
  match s.foldlM ParameterScan.step .start with
  | some state => state.mayEnd
  | none => false

/-! ## Types -/

/-- A media type, in small letters. -/
structure MediaType where
  type : String
  subtype : String
  suffix : Option String
deriving DecidableEq, Repr

namespace MediaType

/-- A text before and after the last of the characters `sep` in it that do not come first. -/
def splitLast (sep : Char) (s : List Char) : List Char × Option (List Char) :=
  let suffix := (s.reverse.takeWhile (· ≠ sep)).reverse
  let stem := s.take (s.length - suffix.length - 1)
  if stem.isEmpty then (s, none) else (stem, some suffix)

/-- A media type of its two parts. -/
def ofParts (type subtype : List Char) : MediaType :=
  let (stem, suffix) := splitLast '+' (subtype.map lower)
  ⟨String.ofList (type.map lower), String.ofList stem, suffix.map String.ofList⟩

/-- Reads a media type. -/
def parse? (s : String) : Option MediaType :=
  match splitToken s.toList with
  | ([], _) => none
  | (type, '/' :: rest) =>
    match splitToken rest with
    | (subtype, []) => some (ofParts type subtype)
    | ([], _) => none
    | (subtype, ';' :: parameters) =>
      if areParameters parameters then some (ofParts type subtype) else none
    | _ => none
  | _ => none

/-- Bodies of the type are JSON. -/
def isJson (m : MediaType) : Bool :=
  m.type == "application" && (m.subtype == "json" || m.suffix == some "json")

end MediaType

end StorageControl.Rest
