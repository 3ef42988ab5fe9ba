/-
# Counters of engine calls

How often each method was called, and how often its calls failed in each way. The counters are
written out as text, one family of samples after the other, in the order of their labels.
-/
import StorageControl.Fault
import StorageControl.Json.Printer
import StorageControl.Table

namespace StorageControl.Engine

/-! ## Counting -/

/-- The ways in which a call fails. -/
inductive FailureKind where
  | engine
  | protocol
  | transport
deriving DecidableEq, Repr

namespace FailureKind

/-- Every way, in the order of their words. -/
def all : List FailureKind := [.engine, .protocol, .transport]

/-- The word for a way to fail. -/
def word : FailureKind → String
  | .engine => "engine"
  | .protocol => "protocol"
  | .transport => "transport"

/-- In which way a call failed that ended in a fault. -/
def ofFault? : Fault → Option FailureKind
  | .unreachable _ => some .transport
  | .mismatched _ _ => some .protocol
  | .declined _ _ => some .engine
  | _ => none

end FailureKind

/-- Counts by method. -/
abbrev Tally := Table Nat

/-- The count of a method. -/
def Tally.count (t : Tally) (method : String) : Nat :=
  (t.find? method).getD 0

/-- One more for a method. -/
def Tally.bump (t : Tally) (method : String) : Tally :=
  t.insert method (t.count method + 1)

/-- The counts of calls and of failures of each kind. -/
structure Counters where
  calls : Tally := {}
  engine : Tally := {}
  protocol : Tally := {}
  transport : Tally := {}
deriving Inhabited

namespace Counters

/-- Nothing has been counted. -/
def zero : Counters := {}

/-- The failures of a kind. -/
def failures (c : Counters) : FailureKind → Tally
  | .engine => c.engine
  | .protocol => c.protocol
  | .transport => c.transport

/-- Counts a call. -/
def countCall (c : Counters) (method : String) : Counters :=
  { c with calls := c.calls.bump method }

/-- Counts a failure. -/
def countFailure (c : Counters) (method : String) : FailureKind → Counters
  | .engine => { c with engine := c.engine.bump method }
  | .protocol => { c with protocol := c.protocol.bump method }
  | .transport => { c with transport := c.transport.bump method }

/-! ## Writing -/

/-- The media type of the text. -/
def contentType : String := "text/plain; version=0.0.4"

/-- A character of a label value. -/
def escapeLabel (c : Char) : List Char :=
  if c = '\\' then ['\\', '\\']
  else if c = '"' then ['\\', '"']
  else if c = '\n' then ['\\', 'n']
  else [c]

/-- A label with its value in quotes. -/
def label (name value : String) : String :=
  name ++ "=\"" ++ String.ofList (value.toList.flatMap escapeLabel) ++ "\""

/-- A family of counters: its name, what it counts, and its samples with their labels. -/
structure SampleFamily where
  name : String
  help : String
  samples : List (List (String × String) × Nat)

/-- The line of a sample. -/
def SampleFamily.sampleLine (f : SampleFamily) (sample : List (String × String) × Nat) : String :=
  let labels := sample.1.map fun l => label l.1 l.2
  f.name ++ "\x7b" ++ String.intercalate "," labels ++ "\x7d " ++
    String.ofList (Decimal.digits sample.2) ++ "\n"

/-- The lines of a family; one without samples has none. -/
def SampleFamily.write (f : SampleFamily) : String :=
  if f.samples.isEmpty then ""
  else
    "# HELP " ++ f.name ++ " " ++ f.help ++ "\n# TYPE " ++ f.name ++ " counter\n" ++
      String.join (f.samples.map f.sampleLine)

/-- The counts of calls. -/
def callFamily (c : Counters) : SampleFamily where
  name := "storage_bridge_engine_calls_total"
  help := "Engine RPC calls issued"
  samples := c.calls.entries.map fun e => ([("method", e.1)], e.2)

/-- The counts of failures. -/
def failureFamily (c : Counters) : SampleFamily where
  name := "storage_bridge_engine_failures_total"
  help := "Engine RPC calls that failed"
  samples := FailureKind.all.flatMap fun kind =>
    (c.failures kind).entries.map fun e => ([("kind", kind.word), ("method", e.1)], e.2)

/-- The counters as text. -/
def write (c : Counters) : String :=
  c.callFamily.write ++ c.failureFamily.write

end Counters

end StorageControl.Engine
