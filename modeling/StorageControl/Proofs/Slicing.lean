/-
# Windows on a listing

A window shows the items from its offset on, as many as its size says, and a page comes with a token
only if the listing goes on after it. The sum that is kept under the token is then the place of the
first item that is not shown, so it is less than the number of items, and a word can hold it. That
makes the pages from there on the rest of the listing. A listing in memory has fewer items than a
word can count.
-/
import Mathlib.Data.List.Basic
import StorageControl.Paging

namespace StorageControl

namespace Window

variable {α : Type} {w : Window} {items : List α}

/-! ## Where a window stops -/

/-- A window does not stop before it starts. -/
theorem start_le_stop (w : Window) (total : Nat) :
    min w.offset.toNat total ≤ w.stop total (min w.offset.toNat total) := by
  have hoffset := w.offset.toNat_lt
  unfold stop saturatingAdd
  split
  · exact Nat.min_le_right _ _
  · simp only [UInt64.size]
    omega

/-- A window of some size stops where the size says, or at the end. -/
theorem stop_of_size {total : Nat} (hsize : w.size ≠ 0) (htotal : total < UInt64.size) :
    w.stop total (min w.offset.toNat total) =
      min (min w.offset.toNat total + w.size.toNat) total := by
  rw [stop, if_neg hsize, saturatingAdd]
  omega

/-! ## What a window shows -/

/-- Items that are dropped up to the end are dropped. -/
theorem drop_min (offset : Nat) : items.drop (min offset items.length) = items.drop offset := by
  rcases Nat.le_total offset items.length with h | h
  · rw [Nat.min_eq_left h]
  · rw [Nat.min_eq_right h, List.drop_length, List.drop_of_length_le h]

/-- A window without a size shows all items from its offset on. -/
theorem slice_of_no_size (hsize : w.size = 0) :
    w.slice items = (items.drop w.offset.toNat, false) := by
  have hstop : w.stop items.length (min w.offset.toNat items.length) = items.length := by
    rw [stop, if_pos hsize]
  rw [slice, hstop, drop_min]
  refine Prod.ext (List.take_of_length_le ?_) (decide_eq_false (Nat.lt_irrefl _))
  rw [List.length_drop]
  omega

/-- A window of some size shows as many items from its offset on, and tells whether there are more.
The sum is one of numbers, which does not overflow. -/
theorem slice_of_size (hsize : w.size ≠ 0) (hitems : items.length < UInt64.size) :
    w.slice items = ((items.drop w.offset.toNat).take w.size.toNat,
      decide (w.offset.toNat + w.size.toNat < items.length)) := by
  rw [slice, stop_of_size hsize hitems, drop_min]
  refine Prod.ext (List.take_eq_take_iff.2 ?_) (decide_eq_decide.2 ?_)
  · rw [List.length_drop]
    omega
  · omega

/-- There are more items exactly if the window has a size and stops before the end. -/
theorem more_iff (hitems : items.length < UInt64.size) :
    (w.slice items).2 = true ↔
      w.size ≠ 0 ∧ w.offset.toNat + w.size.toNat < items.length := by
  by_cases hsize : w.size = 0
  · simp [slice_of_no_size hsize, hsize]
  · simp [slice_of_size hsize hitems, hsize]

/-- The next window starts where this one stops, if the sum of the two words is a word. -/
theorem toNat_next (h : w.offset.toNat + w.size.toNat < UInt64.size) :
    w.next.toNat = w.offset.toNat + w.size.toNat := by
  rw [next, UInt64.toNat_add]
  exact Nat.mod_eq_of_lt h

/-- If there are more items, the next window starts after this one and before the end, and what this
one shows comes right before. -/
theorem next_of_more (hitems : items.length < UInt64.size) (hmore : (w.slice items).2 = true) :
    w.next.toNat = w.offset.toNat + w.size.toNat ∧ w.offset.toNat < w.next.toNat ∧
      w.next.toNat < items.length ∧
      (w.slice items).1 ++ items.drop w.next.toNat = items.drop w.offset.toNat := by
  obtain ⟨hsize, hlt⟩ := (more_iff hitems).1 hmore
  have hpos : 0 < w.size.toNat := Nat.pos_of_ne_zero fun h => hsize (UInt64.toNat_inj.1 h)
  have hnext : w.next.toNat = w.offset.toNat + w.size.toNat := toNat_next (Nat.lt_trans hlt hitems)
  refine ⟨hnext, by omega, by omega, ?_⟩
  rw [slice_of_size hsize hitems, hnext, ← List.drop_drop]
  exact List.take_append_drop _ _

/-- If there are no more items, the window shows all that are left. -/
theorem slice_of_last (hitems : items.length < UInt64.size) (hlast : (w.slice items).2 = false) :
    (w.slice items).1 = items.drop w.offset.toNat := by
  by_cases hsize : w.size = 0
  · rw [slice_of_no_size hsize]
  · rw [slice_of_size hsize hitems] at hlast ⊢
    have hle := of_decide_eq_false hlast
    exact List.take_of_length_le (by rw [List.length_drop]; omega)

/-! ## Windows in a row -/

/-- The pages from an offset on, each of its own size, until there are no more items or no more
sizes. -/
def pages (items : List α) : (offset : UInt64) → (sizes : List UInt64) → List (List α)
  | _, [] => []
  | offset, size :: sizes =>
    let w : Window := ⟨size, offset⟩
    if (w.slice items).2 then (w.slice items).1 :: pages items w.next sizes
    else [(w.slice items).1]

/-- With a size for every item that is left, the pages are the rest of the items. Every page but the
last one shows some, whatever the sizes are. -/
theorem flatten_pages (hitems : items.length < UInt64.size) (sizes : List UInt64)
    (offset : UInt64) (hmany : items.length ≤ offset.toNat + sizes.length) :
    (pages items offset sizes).flatten = items.drop offset.toNat := by
  induction sizes generalizing offset with
  | nil => exact (List.drop_of_length_le hmany).symm
  | cons size sizes ih =>
    let w : Window := ⟨size, offset⟩
    cases hmore : (w.slice items).2 with
    | true =>
      obtain ⟨-, hgrows, -, hjoin⟩ := next_of_more hitems hmore
      have hrest : items.length ≤ w.next.toNat + sizes.length := by
        have hoffset : w.offset.toNat = offset.toNat := rfl
        rw [List.length_cons] at hmany
        omega
      rw [pages, if_pos hmore, List.flatten_cons, ih w.next hrest]
      exact hjoin
    | false =>
      rw [pages, if_neg (by rw [hmore]; exact Bool.false_ne_true), List.flatten_singleton]
      exact slice_of_last hitems hmore

end Window

/-! ## Pages -/

namespace Cursors

variable {α : Type} (cursors : Cursors) (token : String) {items : List α} {w : Window}

/-- A page after which there are more items comes with the token, under which the next window is
kept. -/
theorem paginate_of_more (hmore : (w.slice items).2 = true) :
    cursors.paginate token items w =
      (((w.slice items).1, token), cursors.insert token w.next) := by
  unfold paginate
  generalize w.slice items = cut at hmore
  obtain ⟨page, more⟩ := cut
  cases hmore
  rfl

/-- A page after which there are none comes without a token, and nothing is kept. -/
theorem paginate_of_last (hlast : (w.slice items).2 = false) :
    cursors.paginate token items w = (((w.slice items).1, ""), cursors) := by
  unfold paginate
  generalize w.slice items = cut at hlast
  obtain ⟨page, more⟩ := cut
  cases hlast
  rfl

/-- The page is what the window shows. -/
theorem page_paginate : (cursors.paginate token items w).1.1 = (w.slice items).1 := by
  cases hmore : (w.slice items).2 with
  | true => rw [paginate_of_more cursors token hmore]
  | false => rw [paginate_of_last cursors token hmore]

end Cursors

/-- How a page is cut from items, and what is kept under its token. -/
structure Cursors.Cuts {α : Type} (cursors : Cursors) (token : String) (items : List α)
    (w : Window) : Prop where
  /-- The page does not stop before it starts, so that no length is negative. -/
  start_le_stop :
    min w.offset.toNat items.length ≤ w.stop items.length (min w.offset.toNat items.length)
  /-- It shows the items from the offset on, or from the end if the offset is beyond. -/
  shown : (cursors.paginate token items w).1.1 =
    if w.size = 0 then items.drop (min w.offset.toNat items.length)
    else (items.drop (min w.offset.toNat items.length)).take w.size.toNat
  /-- It is not longer than its size, if it has one. -/
  length_le : w.size ≠ 0 → (cursors.paginate token items w).1.1.length ≤ w.size.toNat
  /-- There are more items exactly if it has a size, and the offset and the size, added as numbers,
  are less than the number of items. -/
  more_iff : (w.slice items).2 = true ↔
    w.size ≠ 0 ∧ w.offset.toNat + w.size.toNat < items.length
  /-- If there are no more items, there is no token, and the page is the rest of them. -/
  last : (w.slice items).2 = false →
    cursors.paginate token items w = ((items.drop w.offset.toNat, ""), cursors)
  /-- If there are, the sum of the offset and the size does not overflow, and it is kept under the
  token. It lies behind the offset and before the end, and the pages from there on are all that this
  page leaves, whatever their sizes are. -/
  minted : (w.slice items).2 = true → ∃ next : UInt64,
    (cursors.paginate token items w).1.2 = token ∧
    (cursors.paginate token items w).2 = cursors.insert token next ∧
    w.offset.toNat + w.size.toNat < UInt64.size ∧
    next.toNat = w.offset.toNat + w.size.toNat ∧
    w.offset.toNat < next.toNat ∧ next.toNat < items.length ∧
    ∀ sizes : List UInt64, items.length ≤ next.toNat + sizes.length →
      (cursors.paginate token items w).1.1 ++ (Window.pages items next sizes).flatten =
        items.drop w.offset.toNat

/-- Whatever items there are in memory, and whatever the offset and the size of a window are, the
page of the window is cut exactly, and what is kept under its token is the place where it stops. -/
theorem Cursors.paginate_cuts {α : Type} (cursors : Cursors) (token : String) (items : List α)
    (w : Window) (hitems : items.length < UInt64.size) : cursors.Cuts token items w := by
  have hshown : (cursors.paginate token items w).1.1 =
      if w.size = 0 then items.drop (min w.offset.toNat items.length)
      else (items.drop (min w.offset.toNat items.length)).take w.size.toNat := by
    rw [page_paginate, Window.drop_min]
    split
    · rename_i hsize
      rw [Window.slice_of_no_size hsize]
    · rename_i hsize
      rw [Window.slice_of_size hsize hitems]
  refine ⟨w.start_le_stop items.length, hshown, fun hsize => ?_, Window.more_iff hitems,
    fun hlast => ?_, fun hmore => ?_⟩
  · rw [hshown, if_neg hsize]
    exact List.length_take_le _ _
  · rw [paginate_of_last cursors token hlast, Window.slice_of_last hitems hlast]
  · obtain ⟨hnext, hgrows, hbefore, hjoin⟩ := Window.next_of_more hitems hmore
    rw [paginate_of_more cursors token hmore]
    refine ⟨w.next, rfl, rfl, ?_, hnext, hgrows, hbefore, fun sizes hmany => ?_⟩
    · rw [← hnext]
      exact w.next.toNat_lt
    · rw [Window.flatten_pages hitems sizes w.next hmany]
      exact hjoin

/-- Two of five items are shown, and a token is minted for the fourth. A window beyond the end shows
none, though its size is the greatest word. -/
theorem Cursors.paginate_cuts_letters :
    let letters := ["a", "b", "c", "d", "e"]
    letters.length < UInt64.size ∧
      Cursors.Cuts {} "t" letters ⟨2, 1⟩ ∧
      (Cursors.paginate {} "t" letters ⟨2, 1⟩).1 = (["b", "c"], "t") ∧
      (Cursors.paginate {} "t" letters ⟨2, 1⟩).2.find? "t" = some 3 ∧
      Cursors.Cuts {} "t" letters ⟨18446744073709551615, 7⟩ ∧
      (Cursors.paginate {} "t" letters ⟨18446744073709551615, 7⟩).1 = ([], "") :=
  ⟨by decide, Cursors.paginate_cuts {} "t" _ _ (by decide), by decide +kernel, by decide +kernel,
    Cursors.paginate_cuts {} "t" _ _ (by decide), by decide +kernel⟩

end StorageControl
