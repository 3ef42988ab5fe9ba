/-
# Reading values byte by byte

A value is read under a shape, one byte at a time, by a machine with a stack of the lists, objects
and records that are open. After any number of bytes the machine says whether the value is
finished, may still go on, or can no longer be read, and in the last case whether the bytes are
malformed as JSON or well formed but unfit for the shape. The first fault met in reading order
decides.

Values of unknown members are passed over: their nesting is not limited, their numbers are not
evaluated and their texts are not decoded.
-/
import StorageControl.Json.Shape
import StorageControl.Text.Utf8
import StorageControl.Decimal.Binary64

namespace StorageControl

/-! ## Numbers -/

namespace Decimal

/-- The byte is a decimal digit. -/
def isDigit (b : UInt8) : Bool :=
  48 ≤ b && b ≤ 57

/-- The values of digits. -/
def digitValues (bs : List UInt8) : List Nat :=
  bs.map fun b => b.toNat - 48

/-- The sign and digits of an exponent. -/
def Literal.readExponent : List UInt8 → Option (Bool × List Nat)
  | [] => none
  | _ :: 45 :: digits => some (true, digitValues digits)
  | _ :: 43 :: digits => some (false, digitValues digits)
  | _ :: digits => some (false, digitValues digits)

/-- The literal spelled by the bytes of a number. -/
def Literal.ofBytes (bs : List UInt8) : Literal :=
  let negative := bs.head? == some 45
  let bs := if negative then bs.tail else bs
  let whole := digitValues (bs.takeWhile isDigit)
  match bs.dropWhile isDigit with
  | 46 :: rest =>
    { negative, whole
      fraction := some (digitValues (rest.takeWhile isDigit))
      exponent := readExponent (rest.dropWhile isDigit) }
  | rest => { negative, whole, exponent := readExponent rest }

end Decimal

/-- The number that a literal stands for. Without fraction and exponent it is whole if it fits 64
bits, with a sign when negative; minus zero is not whole. -/
def Number.ofLiteral? (l : Decimal.Literal) : Option Number :=
  let n := Decimal.ofDigits l.whole
  if l.fraction.isNone ∧ l.exponent.isNone ∧ ¬ l.negative ∧ n < UInt64.size then some (.whole n)
  else if l.fraction.isNone ∧ l.exponent.isNone ∧ l.negative ∧ 0 < n ∧ n ≤ Nat.pow 2 63 then
    some (.whole (-n))
  else l.binary64?.map .real

namespace Json.Reader

/-! ## Where a reader stands -/

/-- Inside a text: between characters, after a backslash, or inside the escape of a code unit,
which for the first half of a surrogate pair goes on with the escape of the second. -/
inductive TextPart where
  | plain
  | escaped
  | unit (digits : List UInt8)
  | afterHigh (high : Nat)
  | afterHighMark (high : Nat)
  | lowUnit (high : Nat) (digits : List UInt8)
deriving Repr

/-- Inside a number: after the part of it that was read last. -/
inductive NumberPart where
  | sign
  | zero
  | whole
  | point
  | fraction
  | exponent
  | exponentSign
  | exponentDigits
deriving DecidableEq, Repr

/-- A word, text or number of which the first bytes are read; `done` holds bytes last first. -/
inductive Lexeme where
  | word (left : List UInt8) (value : Json)
  | text (part : TextPart) (done : List UInt8)
  | number (part : NumberPart) (done : List UInt8)
deriving Repr

/-- What a lexeme is for: a value of a shape, a key, or a key of an object that is passed over. -/
inductive Purpose where
  | value (shape : Shape)
  | key
  | passedKey
deriving Repr

/-- A list, object, record or choice that is open, with what is read of it. -/
inductive Frame where
  | list (item : Shape) (done : List Json)
  | object (done : List (String × Json)) (key : String)
  | record (fields : List Field) (done : List (String × Json)) (current : Option Field)
  | tuple (fields left : List Field) (done : List Json)
  | choice (arms : List (String × Shape)) (bare : Bool)
  | arm (name : String) (shape : Shape) (bare : Bool) (value : Json)
  | passedList
  | passedObject
deriving Repr

/-- What comes next: a value, the first item or key after an opening bracket, a comma or closing
bracket, a key, a colon, or the rest of a lexeme. -/
inductive Mode where
  | value (shape : Shape)
  | first
  | next
  | firstKey
  | key
  | colon
  | lexeme (l : Lexeme) (purpose : Purpose)
deriving Repr

/-- A reader in the middle of a value. -/
structure State where
  stack : List Frame
  mode : Mode
deriving Repr

/-- What one byte makes of a reader. A value is finished with its last byte, or, when it is a
number, by a byte that is not part of it. -/
inductive Progress where
  | reading (state : State)
  | finished (value : Json) (used : Bool)
  | malformed
  | unfit
deriving Repr

/-- A reader at the start of a value of the given shape. -/
def start (shape : Shape) : State := ⟨[], .value shape⟩

/-- How many lists, objects and records may be open at once. -/
def depthLimit : Nat := 127

/-- The purpose is to pass the lexeme over. -/
def Purpose.passes : Purpose → Bool
  | .value .skipped => true
  | .passedKey => true
  | _ => false

/-! ## Finished parts -/

/-- Hands a finished value to the innermost open frame. -/
def deliver (value : Json) (used : Bool) : List Frame → Progress
  | [] => .finished value used
  | .list item done :: stack => .reading ⟨.list item (value :: done) :: stack, .next⟩
  | .object done key :: stack =>
    .reading ⟨.object (Assoc.insert key value done) key :: stack, .next⟩
  | .record fields done (some f) :: stack =>
    .reading ⟨.record fields ((f.1, value) :: done) none :: stack, .next⟩
  | .record fields done none :: stack => .reading ⟨.record fields done none :: stack, .next⟩
  | .tuple fields left done :: stack =>
    .reading ⟨.tuple fields left.tail (value :: done) :: stack, .next⟩
  | .choice arms bare :: stack =>
    match value with
    | .str name =>
      match Assoc.find? name arms with
      | some shape => .reading ⟨.arm name shape bare .null :: stack, .colon⟩
      | none => .unfit
    | _ => .unfit
  | .arm name shape bare _ :: stack => .reading ⟨.arm name shape bare value :: stack, .next⟩
  | .passedList :: stack => .reading ⟨.passedList :: stack, .next⟩
  | .passedObject :: stack => .reading ⟨.passedObject :: stack, .next⟩

/-- Takes a finished key into the innermost open frame. A field may not be given twice. -/
def deliverKey (key : String) : List Frame → Progress
  | .object done _ :: stack => .reading ⟨.object done key :: stack, .colon⟩
  | .record fields done _ :: stack =>
    match fields.find? (fun f => f.1 == key) with
    | none => .reading ⟨.record fields done none :: stack, .colon⟩
    | some f =>
      if done.any (fun e => e.1 == key) then .unfit
      else .reading ⟨.record fields done (some f) :: stack, .colon⟩
  | stack => .reading ⟨stack, .colon⟩

/-- Uses a finished lexeme for its purpose. -/
def complete (purpose : Purpose) (value : Json) (used : Bool) (stack : List Frame) : Progress :=
  match purpose with
  | .value shape =>
    match shape.fit value with
    | some v => deliver v used stack
    | none => .unfit
  | .key =>
    match value with
    | .str key => deliverKey key stack
    | _ => .malformed
  | .passedKey => .reading ⟨stack, .colon⟩

/-- Closes the innermost frame with a bracket or brace. -/
def close (brace : Bool) : List Frame → Progress
  | .list _ done :: stack => if brace then .malformed else deliver (.arr done.reverse) true stack
  | .object done _ :: stack => if brace then deliver (.obj done) true stack else .malformed
  | .record fields done _ :: stack =>
    if ¬ brace then .malformed
    else if Field.complete fields (done.map (·.1)) then
      deliver (Json.object done.reverse) true stack
    else .unfit
  | .tuple fields _ done :: stack =>
    if brace then .malformed
    else
      match Field.positional fields done.reverse with
      | some members => deliver (Json.object members) true stack
      | none => .unfit
  | .arm name _ bare value :: stack =>
    if ¬ brace then .malformed
    else deliver (if bare then .str name else .obj [(name, value)]) true stack
  | .passedList :: stack => if brace then .malformed else deliver .null true stack
  | .passedObject :: stack => if brace then deliver .null true stack else .malformed
  | .choice _ _ :: _ => .malformed
  | [] => .malformed

/-! ## The first byte of a value -/

/-- A blank between lexemes. -/
def isSpace (b : UInt8) : Bool :=
  b == 32 || b == 9 || b == 10 || b == 13

/-- The lexeme that starts with a byte. -/
def lexeme? (b : UInt8) : Option Lexeme :=
  if b = 34 then some (.text .plain [])
  else if b = 110 then some (.word [117, 108, 108] .null)
  else if b = 116 then some (.word [114, 117, 101] (.bool true))
  else if b = 102 then some (.word [97, 108, 115, 101] (.bool false))
  else if b = 45 then some (.number .sign [b])
  else if b = 48 then some (.number .zero [b])
  else if 49 ≤ b ∧ b ≤ 57 then some (.number .whole [b])
  else none

/-- Opens a frame, unless too many are open. -/
def push (frame : Frame) (mode : Mode) (stack : List Frame) : Progress :=
  if stack.length < depthLimit then .reading ⟨frame :: stack, mode⟩ else .malformed

/-- Opens what a bracket opens in place of a value of the shape. -/
def openBracket (stack : List Frame) : Shape → Progress
  | .any => push (.list .any []) .first stack
  | .skipped => .reading ⟨.passedList :: stack, .first⟩
  | .list item => push (.list item []) .first stack
  | .record fields => push (.tuple fields fields []) .first stack
  | _ => .unfit

/-- Opens what a brace opens in place of a value of the shape. -/
def openBrace (stack : List Frame) : Shape → Progress
  | .any => push (.object [] "") .firstKey stack
  | .skipped => .reading ⟨.passedObject :: stack, .firstKey⟩
  | .record fields => push (.record fields [] none) .firstKey stack
  | _ => .unfit

/-- Starts a value of the shape with its first byte. -/
def begin (stack : List Frame) : Shape → UInt8 → Progress
  | .nullable shape, b =>
    if b = 110 then .reading ⟨stack, .lexeme (.word [117, 108, 108] .null) (.value .nothing)⟩
    else begin stack shape b
  | .word words, b =>
    if b = 34 then .reading ⟨stack, .lexeme (.text .plain []) (.value (.word words))⟩
    else if b = 123 then
      push (.choice (words.map fun w => (w, .nothing)) true) (.value .text) stack
    else .malformed
  | .variant arms, b =>
    if b = 34 then .reading ⟨stack, .lexeme (.text .plain []) (.value (.variant arms))⟩
    else if b = 123 then push (.choice arms false) (.value .text) stack
    else .malformed
  | shape, b =>
    if b = 91 then openBracket stack shape
    else if b = 123 then openBrace stack shape
    else
      match lexeme? b with
      | some l => .reading ⟨stack, .lexeme l (.value shape)⟩
      | none => .malformed

/-! ## Bytes between lexemes -/

/-- The shape of the value after the colon of the innermost frame. -/
def valueShape : List Frame → Shape
  | .object _ _ :: _ => .any
  | .record _ _ (some f) :: _ => f.2.2
  | .arm _ shape _ _ :: _ => shape
  | _ => .skipped

/-- The first byte after an opening bracket. -/
def stepFirst (stack : List Frame) (b : UInt8) : Progress :=
  if b = 93 then close false stack
  else
    match stack with
    | .list item _ :: _ => begin stack item b
    | .tuple _ (f :: _) _ :: _ => begin stack f.2.2 b
    | .passedList :: _ => begin stack .skipped b
    | _ => .malformed

/-- What follows a comma. -/
def afterComma (stack : List Frame) : Progress :=
  match stack with
  | .list item _ :: _ => .reading ⟨stack, .value item⟩
  | .tuple _ (f :: _) _ :: _ => .reading ⟨stack, .value f.2.2⟩
  | .passedList :: _ => .reading ⟨stack, .value .skipped⟩
  | .object _ _ :: _ => .reading ⟨stack, .key⟩
  | .record _ _ _ :: _ => .reading ⟨stack, .key⟩
  | .passedObject :: _ => .reading ⟨stack, .key⟩
  | _ => .malformed

/-- The first byte of a key. -/
def stepKey (stack : List Frame) (b : UInt8) : Progress :=
  if b = 34 then
    let purpose := match stack with | .passedObject :: _ => Purpose.passedKey | _ => Purpose.key
    .reading ⟨stack, .lexeme (.text .plain []) purpose⟩
  else .malformed

/-- A byte that is not inside a lexeme. -/
def stepBetween (stack : List Frame) (mode : Mode) (b : UInt8) : Progress :=
  if isSpace b then .reading ⟨stack, mode⟩
  else
    match mode with
    | .value shape => begin stack shape b
    | .first => stepFirst stack b
    | .next =>
      if b = 44 then afterComma stack
      else if b = 93 then close false stack
      else if b = 125 then close true stack
      else .malformed
    | .firstKey => if b = 125 then close true stack else stepKey stack b
    | .key => stepKey stack b
    | .colon => if b = 58 then .reading ⟨stack, .value (valueShape stack)⟩ else .malformed
    | .lexeme _ _ => .malformed

/-! ## Bytes inside a text -/

/-- The value of a digit of base sixteen. -/
def hexValue? (b : UInt8) : Option Nat :=
  if 48 ≤ b ∧ b ≤ 57 then some (b.toNat - 48)
  else if 97 ≤ b ∧ b ≤ 102 then some (b.toNat - 87)
  else if 65 ≤ b ∧ b ≤ 70 then some (b.toNat - 55)
  else none

/-- The code unit spelled by four digits, given last first. -/
def codeUnit? (digits : List UInt8) : Option Nat :=
  digits.reverse.foldl (fun n b => do pure ((← n) * 16 + (← hexValue? b))) (some 0)

/-- The bytes of the character with a code, last first. -/
def charBytes (code : Nat) : List UInt8 :=
  (String.utf8EncodeChar (Char.ofNat code)).reverse

/-- The byte for a letter after a backslash. -/
def simpleEscape? (b : UInt8) : Option UInt8 :=
  if b = 34 ∨ b = 92 ∨ b = 47 then some b
  else if b = 98 then some 8
  else if b = 102 then some 12
  else if b = 110 then some 10
  else if b = 114 then some 13
  else if b = 116 then some 9
  else none

/-- What one byte makes of a text: more of it, its end, or nothing that can be read. -/
inductive TextStep where
  | more (part : TextPart) (done : List UInt8)
  | ended
  | broken
deriving Repr

/-- Ends the escape of a code unit that is not the second half of a pair. -/
def endUnit (unit : Nat) (done : List UInt8) : TextStep :=
  if 0xDC00 ≤ unit ∧ unit ≤ 0xDFFF then .broken
  else if 0xD800 ≤ unit ∧ unit ≤ 0xDBFF then .more (.afterHigh unit) done
  else .more .plain (charBytes unit ++ done)

/-- One byte of a text. A text that is passed over may hold any code units. -/
def stepText (passes : Bool) (part : TextPart) (done : List UInt8) (b : UInt8) : TextStep :=
  match part with
  | .plain =>
    if b = 34 then .ended
    else if b = 92 then .more .escaped done
    else if b < 32 then .broken
    else .more .plain (b :: done)
  | .escaped =>
    if b = 117 then .more (.unit []) done
    else
      match simpleEscape? b with
      | some c => .more .plain (c :: done)
      | none => .broken
  | .unit digits =>
    if digits.length < 3 then .more (.unit (b :: digits)) done
    else
      match codeUnit? (b :: digits) with
      | none => .broken
      | some unit => if passes then .more .plain done else endUnit unit done
  | .afterHigh high => if b = 92 then .more (.afterHighMark high) done else .broken
  | .afterHighMark high => if b = 117 then .more (.lowUnit high []) done else .broken
  | .lowUnit high digits =>
    if digits.length < 3 then .more (.lowUnit high (b :: digits)) done
    else
      match codeUnit? (b :: digits) with
      | none => .broken
      | some low =>
        if 0xDC00 ≤ low ∧ low ≤ 0xDFFF then
          .more .plain (charBytes ((high - 0xD800) * 1024 + (low - 0xDC00) + 0x10000) ++ done)
        else .broken

/-! ## Bytes inside a number -/

/-- The part of a number that comes after one more byte; none if the byte is not part of it. -/
def NumberPart.next? (part : NumberPart) (b : UInt8) : Option NumberPart :=
  match part with
  | .sign => if b = 48 then some .zero else if Decimal.isDigit b then some .whole else none
  | .zero =>
    if b = 46 then some .point else if b = 101 ∨ b = 69 then some .exponent else none
  | .whole =>
    if Decimal.isDigit b then some .whole
    else if b = 46 then some .point
    else if b = 101 ∨ b = 69 then some .exponent
    else none
  | .point => if Decimal.isDigit b then some .fraction else none
  | .fraction =>
    if Decimal.isDigit b then some .fraction
    else if b = 101 ∨ b = 69 then some .exponent
    else none
  | .exponent =>
    if b = 43 ∨ b = 45 then some .exponentSign
    else if Decimal.isDigit b then some .exponentDigits
    else none
  | .exponentSign => if Decimal.isDigit b then some .exponentDigits else none
  | .exponentDigits => if Decimal.isDigit b then some .exponentDigits else none

/-- A number may end after this part. -/
def NumberPart.mayEnd : NumberPart → Bool
  | .zero | .whole | .fraction | .exponentDigits => true
  | .sign | .point | .exponent | .exponentSign => false

/-- Ends a number; `done` holds its bytes last first. -/
def endNumber (purpose : Purpose) (done : List UInt8) (stack : List Frame) : Progress :=
  if purpose.passes then complete purpose .null false stack
  else
    match Number.ofLiteral? (Decimal.Literal.ofBytes done.reverse) with
    | some n => complete purpose (.num n) false stack
    | none => .malformed

/-! ## One byte -/

/-- One more byte. -/
def State.step (s : State) (b : UInt8) : Progress :=
  match s.mode with
  | .lexeme (.word [] value) purpose => complete purpose value false s.stack
  | .lexeme (.word (c :: left) value) purpose =>
    if b ≠ c then .malformed
    else if left = [] then complete purpose value true s.stack
    else .reading ⟨s.stack, .lexeme (.word left value) purpose⟩
  | .lexeme (.text part done) purpose =>
    match stepText purpose.passes part done b with
    | .more part done => .reading ⟨s.stack, .lexeme (.text part done) purpose⟩
    | .broken => .malformed
    | .ended =>
      if purpose.passes then complete purpose .null true s.stack
      else
        match Text.ofBytes? done.reverse with
        | some text => complete purpose (.str text) true s.stack
        | none => .malformed
  | .lexeme (.number part done) purpose =>
    match part.next? b with
    | some part => .reading ⟨s.stack, .lexeme (.number part (b :: done)) purpose⟩
    | none =>
      if ¬ part.mayEnd ∨ part = .zero ∧ Decimal.isDigit b then .malformed
      else
        match endNumber purpose done s.stack with
        | .reading s => stepBetween s.stack s.mode b
        | p => p
  | mode => stepBetween s.stack mode b

/-! ## Many bytes -/

/-- What a run of bytes holds: a value and the bytes after it, the beginning of a value, or
nothing that can be read. -/
inductive Reading where
  | found (value : Json) (rest : List UInt8)
  | truncated
  | malformed
  | unfit
deriving Repr

/-- What the bytes so far hold when no more come. Only a number can end without a byte after it;
one that is passed over must be whole where it is cut. -/
def State.atEnd (s : State) : Reading :=
  match s.mode with
  | .lexeme (.number part done) purpose =>
    if part.mayEnd then
      match endNumber purpose done s.stack with
      | .reading _ => .truncated
      | .finished value _ => .found value []
      | .malformed => .malformed
      | .unfit => .unfit
    else if purpose.passes then .malformed
    else .truncated
  | _ => .truncated

/-- Reads on over some bytes. -/
def State.read (s : State) : List UInt8 → Reading
  | [] => s.atEnd
  | b :: rest =>
    match s.step b with
    | .reading s => s.read rest
    | .finished value true => .found value rest
    | .finished value false => .found value (b :: rest)
    | .malformed => .malformed
    | .unfit => .unfit

end Json.Reader

namespace Json

/-- Reads a value of a shape off the front of some bytes. -/
def readAs (shape : Shape) (bs : List UInt8) : Reader.Reading :=
  (Reader.start shape).read bs

/-- The value that a text spells, with nothing but blanks after it. -/
def parse? (s : String) : Option Json :=
  match readAs .any (Text.bytes s) with
  | .found value rest => if rest.all Reader.isSpace then some value else none
  | _ => none

end Json

end StorageControl
