/-
# Pages of a listing

A listing is handed out in pages. A caller names a page size and, from the second page on, a
token, under which the offset of that page was kept when the page before it was cut. Tokens stay
good for ever: a token used after the listing has changed cuts the listing as it is then.
-/
import StorageControl.Fault
import StorageControl.Table

namespace StorageControl

/-! ## Windows -/

/-- The part of a listing that a page shows. A size of zero sets no limit. -/
structure Window where
  size : UInt64
  offset : UInt64
deriving DecidableEq, Repr

/-- The window after this one. -/
def Window.next (w : Window) : UInt64 :=
  w.offset + w.size

/-- The sum of two words, or the greatest word if it is too large for one. -/
def saturatingAdd (a b : Nat) : Nat :=
  min (a + b) (UInt64.size - 1)

/-- Where the page of a window stops in a listing of `total` items, having started at `start`. -/
def Window.stop (w : Window) (total start : Nat) : Nat :=
  if w.size = 0 then total else min (saturatingAdd start w.size.toNat) total

/-- The items in a window, and whether more follow them. -/
def Window.slice {α : Type} (w : Window) (items : List α) : List α × Bool :=
  let total := items.length
  let start := min w.offset.toNat total
  let stop := w.stop total start
  ((items.drop start).take (stop - start), decide (stop < total))

/-! ## Tokens -/

/-- The offsets kept under the tokens handed out so far. -/
abbrev Cursors := Table UInt64

namespace Cursors

/-- The window that a caller asks for. -/
def window (cursors : Cursors) (pageSize : Int32) (pageToken : String) : Except Fault Window :=
  if pageSize < 0 then .error (.rejected (.negativePageSize pageSize))
  else
    let size := UInt64.ofNat pageSize.toInt.toNat
    if pageToken.isEmpty then .ok ⟨size, 0⟩
    else
      match cursors.find? pageToken with
      | some offset => .ok ⟨size, offset⟩
      | none => .error (.unknown (.pageToken pageToken))

/-- Keeps the offset of the page after a window under a new token. -/
def mint (cursors : Cursors) (token : String) (w : Window) : Cursors :=
  cursors.insert token w.next

/-- Cuts a page. If it is not the last one its successor is kept under `token`; the token handed
out is empty at the end. -/
def paginate {α : Type} (cursors : Cursors) (token : String) (items : List α) (w : Window) :
    (List α × String) × Cursors :=
  let (page, more) := w.slice items
  if more then ((page, token), cursors.mint token w) else ((page, ""), cursors)

end Cursors

end StorageControl
