/-
# White space

White space in the sense of Unicode's `White_Space` property, and the texts made of it. A required
field must hold more than white space, and an engine address is read without the white space
around it.
-/

namespace StorageControl.Text

/-! ## The property -/

/-- `c` has the Unicode property `White_Space`. -/
def isBlank (c : Char) : Bool :=
  (9 ≤ c.toNat && c.toNat ≤ 13) || c.toNat == 0x20 || c.toNat == 0x85 || c.toNat == 0xA0 ||
    c.toNat == 0x1680 || (0x2000 ≤ c.toNat && c.toNat ≤ 0x200A) || c.toNat == 0x2028 ||
    c.toNat == 0x2029 || c.toNat == 0x202F || c.toNat == 0x205F || c.toNat == 0x3000

/-- `s` is empty or holds white space only. -/
def isBlankText (s : String) : Bool :=
  s.toList.all isBlank

/-! ## Trimming -/

/-- `s` without the white space at its two ends. -/
def trim (s : String) : String :=
  String.ofList ((s.toList.dropWhile isBlank).reverse.dropWhile isBlank).reverse

/-- The empty text is blank. -/
@[simp] theorem isBlankText_empty : isBlankText "" = true := rfl

end StorageControl.Text
