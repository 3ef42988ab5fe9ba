/-
# The address of the engine

The engine is reached over a local socket or over the network. An address says which by a mark in
front; without one, a text with a colon is a network address unless it looks like a path.
-/
import StorageControl.Fault
import StorageControl.Text.Blank
import StorageControl.Text.Segments

namespace StorageControl.Engine

/-- Where the engine listens. -/
inductive Address where
  | socket (path : String)
  | network (hostAndPort : String)
deriving DecidableEq, Repr

namespace Address

/-- The mark of a local socket. -/
def socketMark : List Char := ['u', 'n', 'i', 'x', ':']

/-- The mark of a network address. -/
def networkMark : List Char := ['t', 'c', 'p', ':']

/-- A text without mark is the path of a local socket. -/
def looksLikePath (s : List Char) : Bool :=
  s.head? == some '/' || s.head? == some '.' || !s.contains ':'

/-- Reads an address, with blanks around it ignored. -/
def parse (s : String) : Except ConfigFault Address :=
  let s := (Text.trim s).toList
  if s.isEmpty then .error .blankAddress
  else
    match Text.dropStart? socketMark s, Text.dropStart? networkMark s with
    | some path, _ => .ok (.socket (String.ofList path))
    | none, some rest => .ok (.network (String.ofList rest))
    | none, none =>
      if looksLikePath s then .ok (.socket (String.ofList s))
      else .ok (.network (String.ofList s))

/-- The address with its mark. -/
def print : Address → String
  | .socket path => "unix:" ++ path
  | .network hostAndPort => "tcp:" ++ hostAndPort

end Address

end StorageControl.Engine
