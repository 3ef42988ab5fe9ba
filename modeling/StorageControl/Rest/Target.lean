/-
# Request targets

What a request is for is named by a target: a path, and a query after a question mark. In front of
the path there may be a scheme and an authority, which are checked and then play no part. A
fragment at the end is dropped.
-/
import StorageControl.Text.Segments

namespace StorageControl.Rest

/-! ## Faults -/

/-- Why a text is not a target. -/
inductive TargetFault where
  | empty
  | tooLong
  | badCharacter
  | badAuthority
  | badForm
  | longScheme
deriving DecidableEq, Repr

/-- The fault in words. -/
def TargetFault.message : TargetFault → String
  | .empty => "empty string"
  | .tooLong => "uri too long"
  | .badCharacter => "invalid uri character"
  | .badAuthority => "invalid authority"
  | .badForm => "invalid format"
  | .longScheme => "scheme too long"

/-! ## Characters -/

/-- A letter of the Latin alphabet or a digit. -/
def isAlphanumeric (c : Char) : Bool :=
  ('a' ≤ c && c ≤ 'z') || ('A' ≤ c && c ≤ 'Z') || ('0' ≤ c && c ≤ '9')

/-- A character that may stand in a path. -/
def isPathChar (c : Char) : Bool :=
  0x21 ≤ c.toNat && !(['#', '<', '>', '?', '\x60'].contains c)

/-- A character that may stand in a query. -/
def isQueryChar (c : Char) : Bool :=
  0x21 ≤ c.toNat && !(['"', '#', '<', '>'].contains c)

/-- A character that may stand in a scheme. -/
def isSchemeChar (c : Char) : Bool :=
  isAlphanumeric c || ['+', '-', '.', '~'].contains c

/-- A character that ends an authority. -/
def endsAuthority (c : Char) : Bool :=
  ['/', '?', '#'].contains c

/-- A character that may stand in an authority and means nothing there. -/
def isAuthorityChar (c : Char) : Bool :=
  isAlphanumeric c ||
    ['!', '$', '&', '\'', '(', ')', '*', '+', ',', '-', '.', ';', '=', '_', '~'].contains c

/-! ## Targets -/

/-- The target of a request. A target without a question mark has the empty query. -/
structure Target where
  path : String
  query : String := ""
deriving DecidableEq, Repr, Inhabited

namespace Target

/-- Reads a path with its query; in place of an empty path there is `bare`. -/
def ofPath (bare : String) (s : List Char) : Except TargetFault Target :=
  let (path, query) := Text.splitFirst '?' (Text.splitFirst '#' s).1
  let query := query.getD []
  if path.all isPathChar && query.all isQueryChar then
    .ok ⟨if path.isEmpty then bare else String.ofList path, String.ofList query⟩
  else .error .badCharacter

/-! ## Schemes and authorities -/

/-- How long a scheme may be. -/
def schemeLengthBound : Nat := 64

/-- What follows the scheme, if there is one. -/
def afterScheme (s : List Char) : Except TargetFault (Option (List Char)) :=
  match Text.dropStart? [':', '/', '/'] (s.dropWhile isSchemeChar) with
  | none => .ok none
  | some rest =>
    if (s.takeWhile isSchemeChar).length > schemeLengthBound then .error .longScheme
    else .ok (some rest)

/-- What has been seen of an authority: its colons, whether a bracket was opened and closed, and
whether there is an escape. -/
structure AuthorityScan where
  colons : Nat := 0
  opened : Bool := false
  closed : Bool := false
  escape : Bool := false

/-- How many colons there may be in a bracketed address with its port. -/
def colonBound : Nat := 8

/-- One more character of an authority. What a bracket closes is an address and what stands before
an at sign is a user, in both of which colons and escapes may stand. -/
def AuthorityScan.step (s : AuthorityScan) (c : Char) : Except TargetFault AuthorityScan :=
  if c = ':' then
    if s.colons ≥ colonBound then .error .badAuthority
    else .ok { s with colons := s.colons + 1 }
  else if c = '[' then
    if s.escape || s.opened then .error .badAuthority else .ok { s with opened := true }
  else if c = ']' then
    if !s.opened || s.closed then .error .badAuthority
    else .ok { s with closed := true, colons := 0, escape := false }
  else if c = '@' then .ok { s with colons := 0, escape := false }
  else if c = '%' then .ok { s with escape := true }
  else if isAuthorityChar c then .ok s
  else .error .badCharacter

/-- Checks an authority. -/
def checkAuthority (authority : List Char) : Except TargetFault Unit := do
  let s ← authority.foldlM AuthorityScan.step {}
  if s.opened != s.closed || s.colons > 1 || authority.getLast? == some '@' || s.escape then
    .error .badAuthority
  else .ok ()

/-! ## Reading -/

/-- How many bytes a target may have. -/
def lengthBound : Nat := 65534

/-- Reads a target that does not start with its path. Without a scheme it is an authority and
nothing else. -/
def ofAuthority (s : List Char) : Except TargetFault Target := do
  let afterScheme ← afterScheme s
  let rest := afterScheme.getD s
  let authority := rest.takeWhile fun c => !endsAuthority c
  checkAuthority authority
  match afterScheme with
  | none =>
    if authority.length = rest.length then .ok ⟨"", ""⟩
    else if rest.length = 1 then .error .badCharacter
    else .error .badForm
  | some _ =>
    if authority.isEmpty then .error .badForm else ofPath "/" (rest.drop authority.length)

/-- Reads a target. -/
def parse (s : String) : Except TargetFault Target :=
  if s.utf8ByteSize > lengthBound then .error .tooLong
  else
    match s.toList with
    | [] => .error .empty
    | ['*'] => .ok ⟨"*", ""⟩
    | '/' :: rest => ofPath "/" ('/' :: rest)
    | s => ofAuthority s

end Target

end StorageControl.Rest
