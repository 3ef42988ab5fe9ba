/-
# Cursors

Where a reader of a document stands: what is left of the text, and the line and column, since the
columns of a YAML document carry its structure.
-/

namespace StorageControl.Yaml

/-! ## Characters -/

/-- A space or a tab. -/
def isBlank (c : Char) : Bool :=
  c == ' ' || c == '\t'

/-- A character that ends a line. -/
def isBreak (c : Char) : Bool :=
  c == '\n' || c == '\r' || c == '\u0085' || c == '\u2028' || c == '\u2029'

/-- A character of the names of anchors and handles. -/
def isWordChar (c : Char) : Bool :=
  c.isAlphanum || c == '_' || c == '-'

/-- A character that a document may contain. -/
def isPermitted (c : Char) : Bool :=
  let n := c.toNat
  n == 0x09 || n == 0x0a || n == 0x0d || (0x20 ≤ n && n ≤ 0x7e) || n == 0x85 ||
    (0xa0 ≤ n && n ≤ 0xfffd) || 0x10000 ≤ n

/-! ## Cursors -/

/-- What is left of a text, after how many characters, and where it stands in the document. -/
structure Cursor where
  rest : List Char
  index : Nat := 0
  line : Nat := 0
  column : Nat := 0
deriving Inhabited

namespace Cursor

/-- The next character. -/
def head? (c : Cursor) : Option Char :=
  c.rest.head?

/-- The character after `n` others. -/
def peek? (c : Cursor) (n : Nat) : Option Char :=
  c.rest[n]?

/-- The next character satisfies a condition. -/
def next (c : Cursor) (p : Char → Bool) : Bool :=
  c.head?.any p

/-- The character after `n` others is a blank or ends the line, or there is none. -/
def endsWordAt (c : Cursor) (n : Nat) : Bool :=
  (c.peek? n).all fun d => isBlank d || isBreak d

/-- There is no character left on the line. -/
def atLineEnd (c : Cursor) : Bool :=
  c.head?.all isBreak

/-- Passes over `n` characters of a line. -/
def skip (c : Cursor) (n : Nat) : Cursor :=
  { c with rest := c.rest.drop n, index := c.index + n, column := c.column + n }

/-- Passes over characters of a line as long as they satisfy a condition. -/
def skipWhile (c : Cursor) (p : Char → Bool) : Cursor :=
  c.skip (c.rest.takeWhile p).length

/-- Passes over what is left of a line. -/
def skipLine (c : Cursor) : Cursor :=
  c.skipWhile fun d => !isBreak d

/-- The cursor at the start of the next line. -/
def newLine (c : Cursor) (length : Nat) : Cursor where
  rest := c.rest.drop length
  index := c.index + length
  line := c.line + 1
  column := 0

/-- Passes over the end of a line. It counts as a line feed, unless it is one of the separators of
lines and paragraphs, which are kept. -/
def lineBreak? (c : Cursor) : Option (List Char × Cursor) :=
  match c.rest with
  | '\r' :: '\n' :: _ => some (['\n'], c.newLine 2)
  | d :: _ =>
    if d = '\u2028' ∨ d = '\u2029' then some ([d], c.newLine 1)
    else if isBreak d then some (['\n'], c.newLine 1)
    else none
  | [] => none

/-- The cursor stands before three of the given character at the start of a line, and no word goes
on after them. -/
def atTriple (c : Cursor) (mark : Char) : Bool :=
  c.column == 0 && c.rest.take 3 == [mark, mark, mark] && c.endsWordAt 3

/-- The cursor stands before a mark between documents. -/
def atDocumentMark (c : Cursor) : Bool :=
  c.atTriple '-' || c.atTriple '.'

end Cursor

end StorageControl.Yaml
