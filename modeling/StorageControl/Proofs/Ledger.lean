/-
# A ledger of slots

For a parent that comes and goes there are two accounts: the slots of the children that are kept,
and the slots that the engine lists. They change together, except when the parent goes: then the
engine's account is closed, and that of the children stays as it is. From then on it is too long,
for good.
-/
import StorageControl.Proofs.Slot
import Mathlib.Data.Multiset.Filter
import Mathlib.Data.Multiset.ZeroCons

namespace StorageControl

open Multiset (card)

/-- Both accounts of a parent, and whether it is kept. -/
structure Balance where
  up : Bool
  children : Multiset Slot
  slots : Multiset Slot

/-- How the accounts of a parent can change. -/
inductive Balance.Move : Balance → Balance → Prop
  /-- Nothing changes. -/
  | stay (b : Balance) : Move b b
  /-- A child is made in a free slot. -/
  | attach {children slots : Multiset Slot} {s : Slot} (hs : s ∉ slots) :
      Move ⟨true, children, slots⟩ ⟨true, s ::ₘ children, s ::ₘ slots⟩
  /-- A child is dropped and its slot is cleared. -/
  | detach {children slots : Multiset Slot} {s : Slot} (hs : s ∈ slots) :
      Move ⟨true, s ::ₘ children, slots⟩ ⟨true, children, slots.filter (· ≠ s)⟩
  /-- The parent goes. -/
  | lost {children slots : Multiset Slot} : Move ⟨true, children, slots⟩ ⟨false, children, 0⟩
  /-- The parent comes. -/
  | found {children : Multiset Slot} : Move ⟨false, children, 0⟩ ⟨true, children, 0⟩

namespace Balance

variable {b b' : Balance} {stranded : Prop}

theorem Move.of_eq (h : b' = b) : Move b b' :=
  h ▸ .stay b

/-- The parent goes while it has children. -/
def Strands (b b' : Balance) : Prop :=
  b.up = true ∧ b'.up = false ∧ b.children ≠ 0

/-- The accounts agree unless children have been stranded, and then there are more children than
slots. -/
structure Kept (stranded : Prop) (b : Balance) : Prop where
  nodup : b.slots.Nodup
  settled : ¬ stranded → b.children = b.slots
  short : stranded → card b.slots < card b.children

/-- The accounts are kept through every change. -/
theorem Kept.move (h : Kept stranded b) (hmove : Move b b') :
    Kept (stranded ∨ Strands b b') b' := by
  cases hmove with
  | stay =>
    have hnot : ¬ Strands b b := by
      rintro ⟨hup, hdown, -⟩
      rw [hup] at hdown
      cases hdown
    refine ⟨h.nodup, fun hs => h.settled fun hs' => hs (.inl hs'), fun hs => ?_⟩
    exact h.short (hs.resolve_right hnot)
  | @attach children slots s hs =>
    refine ⟨Multiset.nodup_cons.2 ⟨hs, h.nodup⟩, fun hno => ?_, fun hyes => ?_⟩
    · have hsettled : children = slots := h.settled fun hs' => hno (.inl hs')
      rw [hsettled]
    · have hstranded : stranded := hyes.resolve_right fun hstrands => by cases hstrands.2.1
      have hshort : card slots < card children := h.short hstranded
      show card (s ::ₘ slots) < card (s ::ₘ children)
      rw [Multiset.card_cons, Multiset.card_cons]
      omega
  | @detach children slots s hs =>
    have hrest : slots.filter (· ≠ s) = slots.erase s := (h.nodup.erase_eq_filter s).symm
    have hcard := Multiset.card_erase_add_one hs
    refine ⟨h.nodup.filter _, fun hno => ?_, fun hyes => ?_⟩
    · have hsettled : s ::ₘ children = slots := h.settled fun hs' => hno (.inl hs')
      show children = slots.filter (· ≠ s)
      rw [hrest, ← hsettled, Multiset.erase_cons_head]
    · have hstranded : stranded := hyes.resolve_right fun hstrands => by cases hstrands.2.1
      have hshort : card slots < card (s ::ₘ children) := h.short hstranded
      show card (slots.filter (· ≠ s)) < card children
      rw [Multiset.card_cons] at hshort
      rw [hrest]
      omega
  | @lost children slots =>
    -- Whether children are stranded now or were stranded before, there are some.
    refine ⟨Multiset.nodup_zero, fun hno => ?_, fun hyes => ?_⟩
    · by_contra hne
      exact hno (.inr ⟨rfl, rfl, hne⟩)
    · show card (0 : Multiset Slot) < card children
      rw [Multiset.card_zero, Multiset.card_pos]
      rcases hyes with hstranded | ⟨-, -, hne⟩
      · have hshort : card slots < card children := h.short hstranded
        exact Multiset.card_pos.1 (by omega)
      · exact hne
  | @found children =>
    refine ⟨Multiset.nodup_zero, fun hno => h.settled fun hs => hno (.inl hs), fun hyes => ?_⟩
    exact h.short (hyes.resolve_right fun hstrands => by cases hstrands.1)

/-- Every child has a slot of its own. -/
def Backed (b : Balance) : Prop :=
  b.children ≤ b.slots

/-- The children of a parent have slots of their own exactly if none have been stranded. -/
theorem Kept.backed_iff (h : Kept stranded b) : b.Backed ↔ ¬ stranded := by
  constructor
  · intro hbacked hstranded
    have hle := Multiset.card_le_card hbacked
    have hlt := h.short hstranded
    omega
  · intro hno
    exact le_of_eq (h.settled hno)

end Balance

end StorageControl
