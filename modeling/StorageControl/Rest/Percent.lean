/-
# Percent escapes

In a path and in a query a byte may be written as a percent sign with two hexadecimal digits. A
percent sign without them stands for itself.
-/
import StorageControl.Text.Numeral
import StorageControl.Text.Utf8

namespace StorageControl.Rest

/-- The byte that starts an escape. -/
def percentSign : UInt8 := 0x25

/-- The byte that two hexadecimal digits write. -/
def escaped? (high low : UInt8) : Option UInt8 :=
  match Text.digit? 16 (Char.ofNat high.toNat), Text.digit? 16 (Char.ofNat low.toNat) with
  | some h, some l => some (UInt8.ofNat (16 * h + l))
  | _, _ => none

/-- Bytes with every escape replaced by the byte that it writes. -/
def unescape : List UInt8 → List UInt8
  | [] => []
  | [a] => [a]
  | [a, b] => [a, b]
  | a :: b :: c :: rest =>
    if a = percentSign then
      match escaped? b c with
      | some d => d :: unescape rest
      | none => a :: unescape (b :: c :: rest)
    else a :: unescape (b :: c :: rest)

/-- A text with its escapes replaced, if its bytes spell one then. -/
def unescapeText? (s : String) : Option String :=
  Text.ofBytes? (unescape (Text.bytes s))

/-- Bytes without a percent sign are left as they are. -/
theorem unescape_of_not_mem {bs : List UInt8} (h : percentSign ∉ bs) : unescape bs = bs := by
  fun_induction unescape bs with
  | case1 => rfl
  | case2 => rfl
  | case3 => rfl
  | case4 => simp at h
  | case5 => simp at h
  | case6 a b c rest _ ih => rw [ih fun e => h (List.mem_cons_of_mem _ e)]

end StorageControl.Rest
