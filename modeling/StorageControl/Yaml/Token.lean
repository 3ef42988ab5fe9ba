/-
# Tokens

The marks, properties and scalars of a document, in the order in which a tree is built of them. A
mapping key on one line is only known for a key when the colon after it is met, so the places
where such keys may have started are remembered, and the marks for them are put in afterwards.
-/
import StorageControl.Text.Utf8
import StorageControl.Yaml.Scalar

namespace StorageControl.Yaml

/-! ## Tokens -/

/-- A token. Marks for the start and the end of indented sequences and mappings are made from the
columns in which their entries stand. -/
inductive Token where
  | version (major minor : Nat)
  | handle (name expansion : String)
  | documentStart
  | documentEnd
  | sequenceStart
  | mappingStart
  | blockEnd
  | bracketOpen
  | bracketClose
  | braceOpen
  | braceClose
  | entry
  | comma
  | key
  | value
  | alias (name : String)
  | anchor (name : String)
  | tag (handle suffix : String)
  | scalar (text : String) (style : ScalarStyle)
deriving DecidableEq, Repr

/-- Where a key on one line may have started: how many tokens there were, and whether nothing but a
key can stand there. -/
structure KeyStart where
  position : Nat
  required : Bool
  index : Nat
  line : Nat
  column : Nat

/-- How long a key may be. -/
def keyLengthBound : Nat := 1024

/-- A key that started there can no longer be followed by its colon. -/
def KeyStart.isStale (k : KeyStart) (c : Cursor) : Bool :=
  k.line < c.line || k.index + keyLengthBound < c.index

/-- A lexer in the middle of a document: the tokens so far with the last one first, the columns of
the sequences and mappings that are open, whether a key may start here, and where one may have
started, at each level of brackets. -/
structure Lexer where
  cursor : Cursor
  tokens : List Token := []
  count : Nat := 0
  indent : Int := -1
  outer : List Int := []
  keyAllowed : Bool := true
  keyStart : Option KeyStart := none
  enclosing : List (Option KeyStart) := []

namespace Lexer

/-- Inside brackets columns do not matter. -/
def inFlow (s : Lexer) : Bool :=
  !s.enclosing.isEmpty

/-! ## Adding tokens -/

/-- Adds a token. -/
def push (s : Lexer) (t : Token) : Lexer :=
  { s with tokens := t :: s.tokens, count := s.count + 1 }

/-- Adds a token before those from a position on. -/
def insertAt (s : Lexer) (position : Nat) (t : Token) : Lexer :=
  let (after, before) := s.tokens.splitAt (s.count - position)
  { s with tokens := after ++ t :: before, count := s.count + 1 }

/-- Opens a sequence or mapping in a column, unless one is open there. -/
def openAt (s : Lexer) (column position : Nat) (t : Token) : Lexer :=
  if s.inFlow || s.indent ≥ column then s
  else { s.insertAt position t with indent := column, outer := s.indent :: s.outer }

/-- Closes the sequences and mappings that stand to the right of a column. -/
def closeTo (column : Int) : (columns : List Int) → Lexer → Lexer
  | [], s => s
  | before :: rest, s =>
    if s.indent > column then
      closeTo column rest { s.push .blockEnd with indent := before, outer := rest }
    else s

/-- Closes what stands to the right of a column, unless columns do not matter. -/
def close (s : Lexer) (column : Int) : Lexer :=
  if s.inFlow then s else closeTo column s.outer s

/-! ## Keys -/

/-- Forgets a start of a key that is too far back, unless there has to be a key. -/
def forgetStale (c : Cursor) : Option KeyStart → Option (Option KeyStart)
  | none => some none
  | some k => if !k.isStale c then some (some k) else if k.required then none else some none

/-- Forgets the starts of keys that are too far back. -/
def expireKeys (s : Lexer) : Option Lexer := do
  let keyStart ← forgetStale s.cursor s.keyStart
  let enclosing ← s.enclosing.mapM (forgetStale s.cursor)
  return { s with keyStart, enclosing }

/-- Forgets the last start of a key, unless there has to be a key. -/
def dropKey (s : Lexer) : Option Lexer :=
  if s.keyStart.any (·.required) then none else some { s with keyStart := none }

/-- Remembers that a key may start here. -/
def saveKey (s : Lexer) : Option Lexer :=
  if !s.keyAllowed then some s
  else do
    let s ← s.dropKey
    let c := s.cursor
    let required := !s.inFlow && s.indent == c.column
    return { s with keyStart := some ⟨s.count, required, c.index, c.line, c.column⟩ }

/-! ## Marks -/

/-- Adds a token that is written as a mark of the given length. -/
def mark (s : Lexer) (length : Nat) (t : Token) : Lexer :=
  { s.push t with cursor := s.cursor.skip length }

/-- A mark between documents. -/
def documentMark (s : Lexer) (t : Token) : Option Lexer := do
  let s ← (s.close (-1)).dropKey
  return { s with keyAllowed := false }.mark 3 t

/-- A bracket that opens. -/
def openBracket (s : Lexer) (t : Token) : Option Lexer := do
  let s ← s.saveKey
  let s := { s with enclosing := s.keyStart :: s.enclosing, keyStart := none, keyAllowed := true }
  return s.mark 1 t

/-- A bracket that closes. -/
def closeBracket (s : Lexer) (t : Token) : Option Lexer := do
  let s ← s.dropKey
  let s := { s with keyAllowed := false }
  match s.enclosing with
  | [] => return s.mark 1 t
  | keyStart :: enclosing => return { s with keyStart, enclosing }.mark 1 t

/-- A comma between entries. -/
def comma (s : Lexer) : Option Lexer := do
  let s ← s.dropKey
  return { s with keyAllowed := true }.mark 1 .comma

/-- The mark of an entry of an indented sequence. -/
def entry (s : Lexer) : Option Lexer :=
  if !s.inFlow && !s.keyAllowed then none
  else do
    let s ← (s.openAt s.cursor.column s.count .sequenceStart).dropKey
    return { s with keyAllowed := true }.mark 1 .entry

/-- The mark of a key. -/
def keyMark (s : Lexer) : Option Lexer :=
  if !s.inFlow && !s.keyAllowed then none
  else do
    let s ← (s.openAt s.cursor.column s.count .mappingStart).dropKey
    return { s with keyAllowed := !s.inFlow }.mark 1 .key

/-- The mark of a value, which makes a key of what stands before it. -/
def valueMark (s : Lexer) : Option Lexer :=
  match s.keyStart with
  | some k =>
    let s := (s.insertAt k.position .key).openAt k.column k.position .mappingStart
    some ({ s with keyStart := none, keyAllowed := false }.mark 1 .value)
  | none =>
    if !s.inFlow && !s.keyAllowed then none
    else
      let s := s.openAt s.cursor.column s.count .mappingStart
      some ({ s with keyAllowed := !s.inFlow }.mark 1 .value)

/-! ## Properties -/

/-- What may follow the name of an anchor. -/
def endsAnchor (c : Cursor) : Bool :=
  c.endsWordAt 0 || c.next fun d => "?:,]\x7d%@\x60".contains d

/-- The name of an anchor, after its mark. -/
def anchorName? (c : Cursor) : Option (String × Cursor) :=
  let c := c.skip 1
  let name := c.rest.takeWhile isWordChar
  let c := c.skip name.length
  if name.isEmpty || !endsAnchor c then none else some (String.ofList name, c)

/-- An anchor or an alias. -/
def anchored (s : Lexer) (make : String → Token) : Option Lexer := do
  let s ← s.saveKey
  let (name, cursor) ← anchorName? s.cursor
  return { s.push (make name) with cursor, keyAllowed := false }

/-- A character of a tag, apart from percent signs. -/
def isTagChar (verbatim : Bool) (c : Char) : Bool :=
  isWordChar c || ";/?:@&=+$.!~*'()".contains c || (verbatim && ",[]".contains c)

/-- The byte of an escape in a tag. -/
def tagByte? : List Char → Option UInt8
  | '%' :: a :: b :: _ => do
    let x ← Text.digit? 16 a
    let y ← Text.digit? 16 b
    return UInt8.ofNat (16 * x + y)
  | _ => none

/-- The bytes of the text of a tag. A percent sign must start an escape. -/
def tagBytes (verbatim : Bool) : (fuel : Nat) → Cursor → Option (List UInt8 × Cursor)
  | 0, _ => none
  | fuel + 1, c =>
    match c.head? with
    | none => some ([], c)
    | some d =>
      if d = '%' then do
        let b ← tagByte? c.rest
        let (bs, c) ← tagBytes verbatim fuel (c.skip 3)
        return (b :: bs, c)
      else if isTagChar verbatim d then do
        let (bs, c) ← tagBytes verbatim fuel (c.skip 1)
        return (Text.bytes d.toString ++ bs, c)
      else some ([], c)

/-- The text of a tag. -/
def tagText? (verbatim : Bool) (c : Cursor) : Option (String × Cursor) := do
  let (bs, c) ← tagBytes verbatim (c.rest.length + 1) c
  let text ← Text.ofBytes? bs
  return (text, c)

/-- The handle at the start of a tag: two exclamation marks and what stands between them, or one
exclamation mark and the start of the suffix. -/
def tagHandle (c : Cursor) : String × Cursor :=
  let word := (c.skip 1).rest.takeWhile isWordChar
  let c := c.skip (1 + word.length)
  if c.head? == some '!' then ("!" ++ String.ofList word ++ "!", c.skip 1)
  else ("!" ++ String.ofList word, c)

/-- A handle that ends with an exclamation mark of its own. -/
def isWholeHandle (handle : String) : Bool :=
  handle.length ≥ 2 && handle.toList.getLast? == some '!'

/-- Reads a tag. A lone exclamation mark is a tag of its own. -/
def tag? (c : Cursor) : Option (Token × Cursor) :=
  if c.peek? 1 == some '<' then do
    let (suffix, c) ← tagText? true (c.skip 2)
    if suffix.isEmpty || c.head? != some '>' then none else some (.tag "" suffix, c.skip 1)
  else
    let (handle, c) := tagHandle c
    if isWholeHandle handle then do
      let (suffix, c) ← tagText? false c
      if suffix.isEmpty then none else some (.tag handle suffix, c)
    else do
      let (more, c) ← tagText? false c
      let suffix := (handle.drop 1).toString ++ more
      if suffix.isEmpty then some (.tag "" "!", c) else some (.tag "!" suffix, c)

/-- A tag, after which a word has to end. -/
def tagged (s : Lexer) : Option Lexer := do
  let s ← s.saveKey
  let (token, cursor) ← tag? s.cursor
  if cursor.endsWordAt 0 || (s.inFlow && cursor.head? == some ',') then
    some { s.push token with cursor, keyAllowed := false }
  else none

/-! ## Scalars -/

/-- A block scalar. -/
def blockScalar (s : Lexer) (style : ScalarStyle) : Option Lexer := do
  let s ← s.dropKey
  let (text, cursor) ← block? (style == .folded) s.indent s.cursor
  return { s.push (.scalar (String.ofList text) style) with cursor, keyAllowed := true }

/-- A scalar in quotes. -/
def quotedScalar (s : Lexer) (quote : Char) : Option Lexer := do
  let s ← s.saveKey
  let (text, cursor) ← quoted? quote s.cursor
  return { s.push (.scalar (String.ofList text) .quoted) with cursor, keyAllowed := false }

/-- A plain scalar. After the end of a line a key may start again. -/
def plainScalar (s : Lexer) : Option Lexer := do
  let s ← s.saveKey
  let ((text, broken), cursor) ← plain? s.inFlow (s.indent + 1).toNat s.cursor
  return { s.push (.scalar (String.ofList text) .plain) with cursor, keyAllowed := broken }

/-! ## Directives -/

/-- Reads a number of at most nine digits. -/
def versionNumber? (c : Cursor) : Option (Nat × Cursor) :=
  let digits := c.rest.takeWhile Char.isDigit
  if digits.isEmpty ∨ digits.length > 9 then none
  else
    some (digits.foldl (fun n d => n * 10 + (d.toNat - '0'.toNat)) 0, c.skip digits.length)

/-- Reads a version. -/
def version? (c : Cursor) : Option (Token × Cursor) := do
  let (major, c) ← versionNumber? (c.skipWhile isBlank)
  if c.head? != some '.' then none
  else do
    let (minor, c) ← versionNumber? (c.skip 1)
    return (.version major minor, c)

/-- Reads what a handle stands for. -/
def expansion? (c : Cursor) : Option (Token × Cursor) :=
  let c := c.skipWhile isBlank
  if c.head? != some '!' then none
  else
    let (handle, c) := tagHandle c
    if handle != "!" && !isWholeHandle handle then none
    else if !c.next isBlank then none
    else do
      let (text, c) ← tagText? true (c.skipWhile isBlank)
      if text.isEmpty || !c.endsWordAt 0 then none else some (.handle handle text, c)

/-- Reads the body of a directive. -/
def directiveBody? (name : String) (c : Cursor) : Option (Token × Cursor) :=
  if name == "YAML" then version? c
  else if name == "TAG" then expansion? c
  else none

/-- A directive, which fills a line. -/
def directive (s : Lexer) : Option Lexer := do
  let s ← (s.close (-1)).dropKey
  let c := s.cursor.skip 1
  let name := c.rest.takeWhile isWordChar
  let c := c.skip name.length
  if name.isEmpty || !c.endsWordAt 0 then none
  else do
    let (token, c) ← directiveBody? (String.ofList name) c
    let c := c.skipWhile isBlank
    let c := if c.head? == some '#' then c.skipLine else c
    if !c.atLineEnd then none
    else
      let cursor := ((c.lineBreak?).map (·.2)).getD c
      some { s.push token with cursor, keyAllowed := false }

/-! ## The next token -/

/-- Passes over blanks, comments and ends of lines up to the next token. After the end of a line a
key may start, unless it lies inside brackets. -/
def skipBlanks (inFlow : Bool) : (fuel : Nat) → (keyAllowed : Bool) → Cursor → Bool × Cursor
  | 0, keyAllowed, c => (keyAllowed, c)
  | fuel + 1, keyAllowed, c =>
    let c :=
      if c.column == 0 && c.head? == some '\ufeff' then
        { c with rest := c.rest.drop 1, index := c.index + 1, column := c.column + 1 }
      else c
    let c := c.skipWhile fun d => d == ' ' || ((inFlow || !keyAllowed) && d == '\t')
    let c := if c.head? == some '#' then c.skipLine else c
    match c.lineBreak? with
    | some (_, c) => skipBlanks inFlow fuel (keyAllowed || !inFlow) c
    | none => (keyAllowed, c)

/-- A character that starts no plain scalar. -/
def isMark (c : Char) : Bool :=
  "-?:,[]\x7b\x7d#&*!|>'\"%@\x60".contains c

/-- A plain scalar starts here. -/
def startsPlain (s : Lexer) (d : Char) : Bool :=
  (!isBlank d && !isBreak d && !isMark d) ||
    (d == '-' && !(s.cursor.peek? 1).any isBlank) ||
    (!s.inFlow && (d == '?' || d == ':') && !s.cursor.endsWordAt 1)

/-- Reads the next token, which starts with the given character. -/
def token (s : Lexer) (d : Char) : Option Lexer :=
  let c := s.cursor
  let alone := c.endsWordAt 1
  if c.column == 0 && d == '%' then s.directive
  else if c.atTriple '-' then s.documentMark .documentStart
  else if c.atTriple '.' then s.documentMark .documentEnd
  else if d == '[' then s.openBracket .bracketOpen
  else if d == '\x7b' then s.openBracket .braceOpen
  else if d == ']' then s.closeBracket .bracketClose
  else if d == '\x7d' then s.closeBracket .braceClose
  else if d == ',' then s.comma
  else if d == '-' && alone then s.entry
  else if d == '?' && (s.inFlow || alone) then s.keyMark
  else if d == ':' && (s.inFlow || alone) then s.valueMark
  else if d == '*' then s.anchored .alias
  else if d == '&' then s.anchored .anchor
  else if d == '!' then s.tagged
  else if d == '|' && !s.inFlow then s.blockScalar .literal
  else if d == '>' && !s.inFlow then s.blockScalar .folded
  else if d == '\'' || d == '"' then s.quotedScalar d
  else if s.startsPlain d then s.plainScalar
  else none

/-- The end of the text: everything is closed. -/
def finish (s : Lexer) : Option (List Token) := do
  let s ← ({ s with cursor := s.cursor.newLine 0 }.close (-1)).dropKey
  return s.tokens.reverse

/-- Reads all tokens. -/
def all : (fuel : Nat) → Lexer → Option (List Token)
  | 0, _ => none
  | fuel + 1, s =>
    let (keyAllowed, cursor) :=
      skipBlanks s.inFlow (s.cursor.rest.length + 1) s.keyAllowed s.cursor
    match ({ s with keyAllowed, cursor }).expireKeys with
    | none => none
    | some s =>
      let s := s.close s.cursor.column
      match s.cursor.head? with
      | none => s.finish
      | some d => (s.token d).bind (all fuel)

end Lexer

/-- The tokens of a text, if it is put together of them. -/
def tokens? (text : List Char) : Option (List Token) :=
  if text.all isPermitted then Lexer.all (text.length + 1) { cursor := { rest := text } } else none

end StorageControl.Yaml
