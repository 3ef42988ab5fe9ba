/-
# Streams of bytes

A stream to the engine takes lines of text and delivers bytes. What it is going to deliver, whether
writing to it works, and how much of a text it takes before a write fails is fixed beforehand and
does not depend on what is written, so every behaviour of the other side over a finite time is some
stream.
-/
import StorageControl.Text.Utf8

namespace StorageControl.Engine

/-! ## Streams -/

/-- What one read of a stream comes to: some bytes, of which none mean the end, or a failure. -/
inductive Delivery where
  | bytes (bytes : List UInt8)
  | fault (reason : String)
deriving DecidableEq, Repr, Inhabited

/-- A stream: what it delivers, why its writes and flushes fail if they do, and what was written
to it. For each write that fails, `taken` says how many bytes the stream takes before it does; a
write that fails without such a number leaves nothing. -/
structure Stream where
  reads : List Delivery := []
  writes : List (Option String) := []
  taken : List Nat := []
  flushes : List (Option String) := []
  written : List UInt8 := []
deriving DecidableEq, Repr, Inhabited

namespace Stream

/-! ## Writing -/

/-- The bytes of a text that the next write leaves on the stream. A write that fails has not come to
the last byte. -/
def accepted (s : Stream) (text : String) : List UInt8 :=
  match s.writes with
  | some _ :: _ => (Text.bytes text).dropLast.take (s.taken.headD 0)
  | _ => Text.bytes text

/-- Writes a text. -/
def write (s : Stream) (text : String) : Except String Unit × Stream :=
  let after := { s with written := s.written ++ s.accepted text }
  match s.writes with
  | some reason :: writes => (.error reason, { after with writes, taken := s.taken.tail })
  | none :: writes => (.ok (), { after with writes })
  | [] => (.ok (), after)

/-- What was written, as text. -/
def sent (s : Stream) : String :=
  Text.ofBytesLenient s.written

/-- Sends on what was written. -/
def flush (s : Stream) : Except String Unit × Stream :=
  match s.flushes with
  | some reason :: flushes => (.error reason, { s with flushes })
  | none :: flushes => (.ok (), { s with flushes })
  | [] => (.ok (), s)

/-! ## Reading -/

/-- Reads at most `room` bytes. What does not fit is left for the next read. -/
def read (s : Stream) (room : Nat) : Delivery × Stream :=
  match s.reads with
  | [] => (.bytes [], s)
  | .fault reason :: rest => (.fault reason, { s with reads := rest })
  | .bytes bs :: rest =>
    if bs.length ≤ room then (.bytes bs, { s with reads := rest })
    else (.bytes (bs.take room), { s with reads := .bytes (bs.drop room) :: rest })

/-- How many bytes a delivery holds. -/
def Delivery.size : Delivery → Nat
  | .bytes bs => bs.length
  | .fault _ => 0

/-- How many bytes the stream has yet to deliver. -/
def remaining (s : Stream) : Nat :=
  (s.reads.map Delivery.size).foldr (· + ·) 0

/-- Reading bytes leaves fewer of them. -/
theorem remaining_read {s t : Stream} {room : Nat} {b : UInt8} {bs : List UInt8}
    (h : s.read room = (.bytes (b :: bs), t)) : t.remaining < s.remaining := by
  unfold read at h
  split at h
  · simp at h
  · simp at h
  · rename_i cs rest hs
    split at h
    · obtain ⟨h₁, rfl⟩ := Prod.mk.inj h
      simp only [Delivery.bytes.injEq] at h₁
      simp [remaining, hs, Delivery.size, h₁]
    · obtain ⟨h₁, rfl⟩ := Prod.mk.inj h
      simp only [Delivery.bytes.injEq] at h₁
      have hlen := congrArg List.length h₁
      simp only [List.length_take, List.length_cons] at hlen
      simp only [remaining, hs, Delivery.size, List.map_cons, List.foldr_cons, List.length_drop]
      omega

end Stream

end StorageControl.Engine
