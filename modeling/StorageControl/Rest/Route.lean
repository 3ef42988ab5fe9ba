/-
# Routes

A path leads to the records of a kind, to one record, to its counters, or to a probe of the server
itself. Which tasks there are at the end of a route depends on the verb of the request.
-/
import StorageControl.Name
import StorageControl.Rest.Percent

namespace StorageControl

/-! ## Kinds by collection -/

/-- The kind without parent whose records are in a collection. -/
def Kind.atRoot? (collection : String) : Option Kind :=
  Kind.all.find? fun k => k.parent?.isNone && k.collection == collection

/-- The kind whose records are in a collection under a record of another kind. -/
def Kind.under? (owner : Kind) (collection : String) : Option Kind :=
  Kind.all.find? fun k => k.parent? == some owner && k.collection == collection

namespace Rest

/-! ## Verbs and tasks -/

/-- What a request wants to do. -/
inductive Verb where
  | read
  | add
  | change
  | remove
deriving DecidableEq, Repr

/-- The verb that a method stands for. A request for the head of an answer reads. -/
def Verb.ofMethod? : String → Option Verb
  | "GET" | "HEAD" => some .read
  | "POST" => some .add
  | "PATCH" => some .change
  | "DELETE" => some .remove
  | _ => none

/-- What can be done with records. -/
inductive Task where
  | list
  | create
  | get
  | update
  | delete
  | stats
deriving DecidableEq, Repr

/-! ## Routes -/

/-- What a route to records leads to. -/
inductive Facet where
  | collection
  | record
  | counters
deriving DecidableEq, Repr

/-- The task of a verb at the end of a route to records. -/
def Facet.task? : Facet → Verb → Option Task
  | .collection, .read => some .list
  | .collection, .add => some .create
  | .record, .read => some .get
  | .record, .change => some .update
  | .record, .remove => some .delete
  | .counters, .read => some .stats
  | _, _ => none

/-- What the server tells of itself: that it runs, whether the engine answers, and its counters. -/
inductive Probe where
  | health
  | readiness
  | metrics
deriving DecidableEq, Repr

/-- Where a path leads. The ids are those of the parent, for a nested kind, and of the record, on
a route to one. -/
inductive Route where
  | records (facet : Facet) (kind : Kind) (parentId ownId : String)
  | probe (probe : Probe)
deriving DecidableEq, Repr

namespace Route

/-! ## Reading a path -/

/-- The route under the version of the interface. An id at the very end must not be empty. -/
def ofRecordPath? : List String → Option Route
  | [c] => (Kind.atRoot? c).map fun k => .records .collection k "" ""
  | [c, id] => if id.isEmpty then none else (Kind.atRoot? c).map fun k => .records .record k "" id
  | [c, id, d] => do
    let owner ← Kind.atRoot? c
    if d = "stats" then return .records .counters owner "" id
    else
      let k ← owner.under? d
      return .records .collection k id ""
  | [c, parentId, d, id] => do
    let owner ← Kind.atRoot? c
    let k ← owner.under? d
    if id.isEmpty then none else some (.records .record k parentId id)
  | [c, parentId, d, id, "stats"] => do
    let owner ← Kind.atRoot? c
    let k ← owner.under? d
    return .records .counters k parentId id
  | _ => none

/-- The route of a path, with the ids as they are written there. -/
def ofPath? (path : String) : Option Route :=
  match Text.segments '/' path with
  | ["", "health"] => some (.probe .health)
  | ["", "ready"] => some (.probe .readiness)
  | ["", "metrics"] => some (.probe .metrics)
  | "" :: "v1" :: rest => ofRecordPath? rest
  | _ => none

end Route

end Rest

end StorageControl
