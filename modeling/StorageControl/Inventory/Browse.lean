/-
# Reading a listing page by page

A reader starts a listing without a token and goes on with the token of each page until there is
none. The page size may be another one on every page, and between two pages any listings may be
asked for on the same inventory.
-/
import StorageControl.Inventory.Operation
import StorageControl.Uuid

namespace StorageControl

open Engine (Answer Call)

/-- A listing to be asked for, and the random bits for its token. -/
structure Listing where
  kind : Kind
  request : ListRequest
  bits : Nat

/-- What the reader sees of one page and does before the next: the size of the page, the random bits
for the token that comes with it, and the listings that are asked for in between. -/
structure Leaf where
  size : Int32
  bits : Nat
  between : List Listing

/-- The request for the page of a leaf. -/
def Leaf.request (leaf : Leaf) (parent token : String) : ListRequest :=
  { parent, pageSize := leaf.size, pageToken := token }

/-- The texts that may become tokens at a leaf. -/
def Leaf.texts (leaf : Leaf) : List String :=
  Uuid.text leaf.bits :: leaf.between.map fun l => Uuid.text l.bits

/-- A page that was asked for: what was kept and the state of the engine before, and the result. -/
structure Visit (k : Kind) (σ : Type) where
  inventory : Inventory
  engine : σ
  result : Except Fault (Page k.Record)

namespace Inventory

variable {σ : Type} (registry : Attach.Registry) (engine : σ → Call → Answer × σ)

/-- Asks for a page of a listing. -/
def ask (k : Kind) (bits : Nat) (request : ListRequest) (inv : Inventory) (s : σ) :
    Procedure.Course (Page k.Record) σ :=
  (inv.list registry k (Uuid.text bits) request).run engine s

/-- What is kept, and the state of the engine, when listings have been asked for. -/
def askAll (listings : List Listing) (inv : Inventory) (s : σ) : Inventory × σ :=
  listings.foldl
    (fun now l =>
      let course := now.1.ask registry engine l.kind l.bits l.request now.2
      (now.1.after course.events, course.engine))
    (inv, s)

/-- Reads a listing from a token on, until a page comes without a token or there are no more leaves.
A fault ends the reading too. -/
def browse (k : Kind) (parent : String) :
    List Leaf → (token : String) → Inventory → σ → List (Visit k σ)
  | [], _, _, _ => []
  | leaf :: leaves, token, inv, s =>
    let course := inv.ask registry engine k leaf.bits (leaf.request parent token) s
    let visit : Visit k σ := ⟨inv, s, course.result⟩
    match course.result with
    | .error _ => [visit]
    | .ok page =>
      if page.nextPageToken.isEmpty then [visit]
      else
        let now := askAll registry engine leaf.between (inv.after course.events) course.engine
        visit :: browse k parent leaves page.nextPageToken now.1 now.2

end Inventory

end StorageControl
