/-
# Texts cut at a separator

A text is cut at every occurrence of a separator, so that it has one piece more than separators.
Resource names and field paths are read this way.
-/

namespace StorageControl.Text

/-! ## Cutting -/

/-- The pieces of a character list between occurrences of `sep`. -/
def cut (sep : Char) : List Char → List (List Char)
  | [] => [[]]
  | c :: rest =>
    if c = sep then [] :: cut sep rest
    else
      match cut sep rest with
      | [] => [[c]]
      | piece :: pieces => (c :: piece) :: pieces

/-- The pieces of a text between occurrences of `sep`. -/
def segments (sep : Char) (s : String) : List String :=
  (cut sep s.toList).map String.ofList

/-- The part of `s` before the first `sep`, and the part after it when there is one. -/
def splitFirst (sep : Char) : List Char → List Char × Option (List Char)
  | [] => ([], none)
  | c :: rest =>
    if c = sep then ([], some rest)
    else ((c :: (splitFirst sep rest).1), (splitFirst sep rest).2)

/-- What is left of a character list after a given beginning. -/
def dropStart? : List Char → List Char → Option (List Char)
  | [], s => some s
  | _ :: _, [] => none
  | p :: ps, c :: s => if p = c then dropStart? ps s else none

/-! ## Small facts -/

/-- There is always a first piece. -/
theorem cut_ne_nil (sep : Char) (s : List Char) : cut sep s ≠ [] := by
  cases s with
  | nil => simp [cut]
  | cons c rest =>
    unfold cut
    split
    · simp
    · split <;> simp

/-- A list without the separator is its own only piece. -/
theorem cut_of_not_mem {sep : Char} {s : List Char} (h : sep ∉ s) : cut sep s = [s] := by
  induction s with
  | nil => rfl
  | cons c rest ih =>
    have hc : c ≠ sep := fun e => h (by simp [e])
    have hr : sep ∉ rest := fun e => h (by simp [e])
    simp [cut, hc, ih hr]

/-- A piece without the separator, then the separator: the piece comes first. -/
theorem cut_append_sep {sep : Char} {s : List Char} (h : sep ∉ s) (rest : List Char) :
    cut sep (s ++ sep :: rest) = s :: cut sep rest := by
  induction s with
  | nil => simp [cut]
  | cons c s ih =>
    have hc : c ≠ sep := fun e => h (by simp [e])
    have hs : sep ∉ s := fun e => h (by simp [e])
    simp [cut, hc, ih hs]

/-- A beginning is dropped exactly where it stands. -/
theorem dropStart?_append (p s : List Char) : dropStart? p (p ++ s) = some s := by
  induction p with
  | nil => rfl
  | cons c p ih => simp [dropStart?, ih]

/-- What is dropped and what is left make up the text. -/
theorem eq_append_of_dropStart? {p s r : List Char} (h : dropStart? p s = some r) :
    s = p ++ r := by
  induction p generalizing s with
  | nil => simpa [dropStart?] using h
  | cons c p ih =>
    cases s with
    | nil => simp [dropStart?] at h
    | cons d s =>
      by_cases hcd : c = d
      · simp only [dropStart?, hcd, if_true] at h
        simp [hcd, ih h]
      · simp [dropStart?, hcd] at h

end StorageControl.Text
