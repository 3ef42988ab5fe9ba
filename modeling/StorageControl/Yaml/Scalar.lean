/-
# Scalars

A scalar is a text, written plainly, in quotes, or as an indented block. Where a scalar goes on
over several lines, the end of a line counts as a space, and each blank line as the end of a line.
-/
import StorageControl.Text.Numeral
import StorageControl.Yaml.Cursor

namespace StorageControl.Yaml

/-- How a scalar is written. -/
inductive ScalarStyle where
  | plain
  | quoted
  | literal
  | folded
deriving DecidableEq, Repr

/-! ## Gaps -/

/-- What stands between two words: blanks, or the ends of lines. -/
structure Gap where
  blanks : List Char := []
  broken : Bool := false
  first : List Char := []
  more : List Char := []

namespace Gap

/-- The text that a gap stands for. -/
def text (g : Gap) : List Char :=
  if !g.broken then g.blanks
  else if g.first = ['\n'] then (if g.more.isEmpty then [' '] else g.more)
  else g.first ++ g.more

/-- One more end of a line. -/
def addBreak (g : Gap) (lineEnd : List Char) : Gap :=
  if g.broken then { g with more := g.more ++ lineEnd }
  else { broken := true, first := lineEnd }

/-- One more blank, which does not count at the start of a line. -/
def addBlank (g : Gap) (blank : Char) : Gap :=
  if g.broken then g else { g with blanks := g.blanks ++ [blank] }

/-- Reads blanks and ends of lines. A tab must not stand before column `indent` of a later
line. -/
def read (indent : Nat) : (fuel : Nat) → Gap → Cursor → Option (Gap × Cursor)
  | 0, _, _ => none
  | fuel + 1, g, c =>
    match c.lineBreak?, c.head? with
    | some (lineEnd, c), _ => read indent fuel (g.addBreak lineEnd) c
    | none, some d =>
      if !isBlank d then some (g, c)
      else if g.broken && d == '\t' && c.column < indent then none
      else read indent fuel (g.addBlank d) (c.skip 1)
    | none, none => some (g, c)

end Gap

/-! ## Plain scalars -/

/-- A character that ends a plain scalar inside brackets. -/
def isFlowMark (c : Char) : Bool :=
  c == ',' || c == '[' || c == ']' || c == '\x7b' || c == '\x7d'

/-- Reads a word of a plain scalar. Inside brackets a colon must not stand before a mark. -/
def plainWord (inFlow : Bool) (c : Cursor) : List Char → Option (List Char × Cursor)
  | [] => some ([], c)
  | d :: rest =>
    if isBlank d || isBreak d then some ([], c)
    else if d = ':' ∧ rest.head?.all fun e => isBlank e || isBreak e then some ([], c)
    else if inFlow ∧ d = ':' ∧ rest.head?.any fun e => isFlowMark e || e == '?' then none
    else if inFlow ∧ isFlowMark d then some ([], c)
    else
      match plainWord inFlow (c.skip 1) rest with
      | some (word, c) => some (d :: word, c)
      | none => none

/-- Reads a plain scalar, after words and a gap. Tells whether a line ended after its last word. -/
def plainFrom (inFlow : Bool) (indent : Nat) :
    (fuel : Nat) → (done : List Char) → Gap → Cursor → Option ((List Char × Bool) × Cursor)
  | 0, _, _, _ => none
  | fuel + 1, done, g, c =>
    if c.atDocumentMark || c.head? == some '#' then some ((done, g.broken), c)
    else
      match plainWord inFlow c c.rest with
      | none => none
      | some (word, c) =>
        let (done, g) := if word.isEmpty then (done, g) else (done ++ g.text ++ word, {})
        if !c.next fun d => isBlank d || isBreak d then some ((done, g.broken), c)
        else
          match g.read indent (c.rest.length + 1) c with
          | none => none
          | some (g, c) =>
            if !inFlow && c.column < indent then some ((done, g.broken), c)
            else plainFrom inFlow indent fuel done g c

/-- Reads a plain scalar that must be indented by `indent` columns. -/
def plain? (inFlow : Bool) (indent : Nat) (c : Cursor) :
    Option ((List Char × Bool) × Cursor) :=
  plainFrom inFlow indent (c.rest.length + 1) [] {} c

/-! ## Quoted scalars -/

/-- What a character after a backslash stands for. -/
def simpleEscape? : Char → Option Char
  | '0' => some '\x00'
  | 'a' => some '\x07'
  | 'b' => some '\x08'
  | 't' | '\t' => some '\t'
  | 'n' => some '\n'
  | 'v' => some '\x0b'
  | 'f' => some '\x0c'
  | 'r' => some '\r'
  | 'e' => some '\x1b'
  | ' ' => some ' '
  | '"' => some '"'
  | '/' => some '/'
  | '\\' => some '\\'
  | 'N' => some '\u0085'
  | '_' => some '\u00a0'
  | 'L' => some '\u2028'
  | 'P' => some '\u2029'
  | _ => none

/-- How many hexadecimal digits come after a letter that asks for them. -/
def escapeLength? : Char → Option Nat
  | 'x' => some 2
  | 'u' => some 4
  | 'U' => some 8
  | _ => none

/-- The character with a code, if there is one. -/
def charOf? (code : Nat) : Option Char :=
  if h : code.isValidChar then some (Char.ofNatAux code h) else none

/-- Reads what comes after a backslash. -/
def escape? (c : Cursor) : Option (Char × Cursor) :=
  match c.rest with
  | [] => none
  | letter :: rest =>
    match simpleEscape? letter, escapeLength? letter with
    | some d, _ => some (d, c.skip 1)
    | none, none => none
    | none, some length =>
      match (rest.take length).mapM (Text.digit? 16) with
      | none => none
      | some digits =>
        if digits.length < length then none
        else (charOf? (Text.valueOf 16 digits)).map fun d => (d, c.skip (1 + length))

/-- Reads a quoted scalar up to and with the quote at its end. -/
def quotedFrom (quote : Char) :
    (fuel : Nat) → (done : List Char) → Cursor → Option (List Char × Cursor)
  | 0, _, _ => none
  | fuel + 1, done, c =>
    if c.atDocumentMark then none
    else
      match c.rest with
      | [] => none
      | d :: rest =>
        if isBlank d || isBreak d then
          match Gap.read 0 (c.rest.length + 1) {} c with
          | some (g, c) => quotedFrom quote fuel (done ++ g.text) c
          | none => none
        else if d = quote ∧ quote = '\'' ∧ rest.head? = some '\'' then
          quotedFrom quote fuel (done ++ ['\'']) (c.skip 2)
        else if d = quote then some (done, c.skip 1)
        else if d = '\\' ∧ quote = '"' then
          match (c.skip 1).lineBreak? with
          | some (_, c) =>
            match Gap.read 0 (c.rest.length + 1) { broken := true } c with
            | some (g, c) => quotedFrom quote fuel (done ++ g.text) c
            | none => none
          | none =>
            match escape? (c.skip 1) with
            | some (e, c) => quotedFrom quote fuel (done ++ [e]) c
            | none => none
        else quotedFrom quote fuel (done ++ [d]) (c.skip 1)

/-- Reads a scalar in quotes. -/
def quoted? (quote : Char) (c : Cursor) : Option (List Char × Cursor) :=
  quotedFrom quote (c.rest.length + 1) [] (c.skip 1)

/-! ## Block scalars -/

/-- What becomes of the ends of lines at the end of a block. -/
inductive Chomping where
  | strip
  | clip
  | keep
deriving DecidableEq

/-- Reads the mark for the end of a block. -/
def chomping? (c : Cursor) : Option (Chomping × Cursor) :=
  match c.head? with
  | some '+' => some (.keep, c.skip 1)
  | some '-' => some (.strip, c.skip 1)
  | _ => none

/-- Reads how far a block is indented, which is not zero; zero if that is not said. -/
def increment? (c : Cursor) : Option (Nat × Cursor) :=
  match c.head? with
  | some d =>
    if d = '0' then none
    else if '1' ≤ d ∧ d ≤ '9' then some (d.toNat - '0'.toNat, c.skip 1)
    else some (0, c)
  | none => some (0, c)

/-- Reads both marks of a block, in either order. -/
def blockMarks? (c : Cursor) : Option ((Chomping × Nat) × Cursor) :=
  match chomping? c with
  | some (chomping, c) => (increment? c).map fun (n, c) => ((chomping, n), c)
  | none =>
    match increment? c with
    | none => none
    | some (0, c) => some ((.clip, 0), c)
    | some (n, c) =>
      match chomping? c with
      | some (chomping, c) => some ((chomping, n), c)
      | none => some ((.clip, n), c)

/-- Reads the indentation and the blank lines before a line of a block. With `indent` zero the
indentation is not known yet. Gives the ends of the blank lines and the greatest column
reached. -/
def blockBreaks (indent : Nat) :
    (fuel : Nat) → (breaks : List Char) → (greatest : Nat) → Cursor →
      Option ((List Char × Nat) × Cursor)
  | 0, _, _, _ => none
  | fuel + 1, breaks, greatest, c =>
    let spaces := (c.rest.takeWhile (· == ' ')).length
    let c := c.skip (if indent = 0 then spaces else min spaces (indent - c.column))
    let greatest := max greatest c.column
    if (indent == 0 || c.column < indent) && c.head? == some '\t' then none
    else
      match c.lineBreak? with
      | some (lineEnd, c) => blockBreaks indent fuel (breaks ++ lineEnd) greatest c
      | none => some ((breaks, greatest), c)

/-- A block as far as it is read: its text, the end of its last line, the ends of the blank lines
after it, and whether its last line starts with a blank. -/
structure Block where
  done : List Char := []
  last : List Char := []
  blanks : List Char := []
  spaced : Bool := false

/-- The text between the last line of a block and the next one. In a folded block the end of a
line counts as a space, unless one of the lines starts with a blank. -/
def Block.join (b : Block) (folded spaced : Bool) : List Char :=
  if folded && b.last == ['\n'] && !b.spaced && !spaced then
    (if b.blanks.isEmpty then [' '] else []) ++ b.blanks
  else b.last ++ b.blanks

/-- Reads the lines of a block. -/
def blockLines (folded : Bool) (indent : Nat) :
    (fuel : Nat) → Block → Cursor → Option (Block × Cursor)
  | 0, _, _ => none
  | fuel + 1, b, c =>
    if c.column ≠ indent ∨ c.rest.isEmpty then some (b, c)
    else
      let spaced := c.next isBlank
      let line := c.rest.takeWhile fun d => !isBreak d
      let done := b.done ++ b.join folded spaced ++ line
      let c := c.skipLine
      let (last, c) := (c.lineBreak?).getD ([], c)
      match blockBreaks indent (c.rest.length + 1) [] 0 c with
      | none => none
      | some ((blanks, _), c) => blockLines folded indent fuel { done, last, blanks, spaced } c

/-- The text of a block. -/
def Block.text (b : Block) : Chomping → List Char
  | .strip => b.done
  | .clip => b.done ++ b.last
  | .keep => b.done ++ b.last ++ b.blanks

/-- Reads a block scalar in something that is indented by `outer` columns, which is less than zero
at the top. -/
def block? (folded : Bool) (outer : Int) (c : Cursor) : Option (List Char × Cursor) :=
  match blockMarks? (c.skip 1) with
  | none => none
  | some ((chomping, increment), c) =>
    let c := c.skipWhile isBlank
    let c := if c.head? == some '#' then c.skipLine else c
    if !c.atLineEnd then none
    else
      let c := ((c.lineBreak?).map (·.2)).getD c
      let stated := if increment = 0 then 0 else (max outer 0).toNat + increment
      match blockBreaks stated (c.rest.length + 1) [] 0 c with
      | none => none
      | some ((blanks, greatest), c) =>
        let indent := if stated = 0 then max greatest (max (outer + 1) 1).toNat else stated
        (blockLines folded indent (c.rest.length + 1) { blanks } c).map fun (b, c) =>
          (b.text chomping, c)

end StorageControl.Yaml
