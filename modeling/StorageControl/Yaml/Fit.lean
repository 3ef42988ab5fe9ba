/-
# Nodes as values of a shape

A node is taken for a value where one of a certain shape is expected. Scalars have no type of their
own: any scalar is a text, and one that is written plainly is a number if it reads as one. A
record is a mapping, or nothing at all.
-/
import StorageControl.Json.Codec
import StorageControl.Yaml.Node

namespace StorageControl.Yaml

/-! ## Whole numbers -/

/-- The digits of a number to a base, with a sign in front of them. -/
def signed? (base : Nat) (negative : Bool) (s : List Char) : Option Int :=
  match s with
  | [] => none
  | _ =>
    (s.mapM (Text.digit? base)).map fun digits =>
      let n : Int := Text.valueOf base digits
      if negative then -n else n

/-- Digits that are no number, because they start with a zero. -/
def isZeroPadded (s : List Char) : Bool :=
  s.length > 1 && s.head? == some '0' && s.all Char.isDigit

/-- The marks of bases other than ten. -/
def baseMarks : List (List Char × Nat) :=
  [(['0', 'x'], 16), (['0', 'o'], 8), (['0', 'b'], 2)]

/-- The number after the mark of a base. -/
def marked? (negative : Bool) (s : List Char) : Option Int :=
  baseMarks.findSome? fun (mark, base) => (Text.dropStart? mark s).bind (signed? base negative)

/-- The whole number that a text spells, with at most one sign. -/
def whole? (s : List Char) : Option Int :=
  let negative := s.head? == some '-'
  let digits := if negative || s.head? == some '+' then s.tail else s
  match marked? negative digits with
  | some n => some n
  | none => if isZeroPadded digits then none else signed? 10 negative digits

/-- The tag of whole numbers. -/
def wholeTag : String := "tag:yaml.org,2002:int"

/-- A scalar that is written so that it can be a number. -/
def mayBeWhole (style : ScalarStyle) (tag : Option String) : Bool :=
  style == .plain || (style == .literal && tag == some wholeTag)

/-! ## Words -/

/-- A scalar that stands for nothing. -/
def isNull (text : String) (style : ScalarStyle) : Bool :=
  style == .plain && ["", "null", "Null", "NULL", "~"].contains text

/-- The word that a scalar spells. A tag of its own names the word, and the scalar is then to
stand for nothing. -/
def word? (text : String) (style : ScalarStyle) (tag : Option String) : Option String :=
  match tag.bind fun t => Text.dropStart? ['!'] t.toList with
  | none => some text
  | some name => if isNull text style then some (String.ofList name) else none

/-! ## Values -/

/-- The node that is meant: a named one in place of a reference. -/
def Node.target (named : List (Nat × Node)) : Node → Node
  | .alias number => ((named.find? (·.1 == number)).map (·.2)).getD .empty
  | n => n

/-- The text of a scalar. -/
def Node.text? (named : List (Nat × Node)) (n : Node) : Option String :=
  match n.target named with
  | .scalar text _ _ => some text
  | _ => none

/-- The entries of a mapping under a field's key. -/
def entriesOf (key : String) (entries : List (String × Node)) : List Node :=
  (entries.filter (·.1 == key)).map (·.2)

mutual

/-- The value that a node is under a shape. -/
def fit (named : List (Nat × Node)) : Shape → Node → Option Json
  | .text, n => (n.text? named).map .str
  | .whole least greatest, n =>
    match n.target named with
    | .scalar text style tag =>
      if mayBeWhole style tag then
        (whole? text.toList).bind fun n =>
          if least ≤ n ∧ n ≤ greatest then some (.ofInt n) else none
      else none
    | _ => none
  | .word words, n =>
    match n.target named with
    | .scalar text style tag =>
      (word? text style tag).bind fun w => if w ∈ words then some (.str w) else none
    | _ => none
  | .record fields, n =>
    match n.target named with
    | .mapping entries =>
      let keyed := entries.mapM fun (e : Node × Node) =>
        (e.1.text? named).map fun key => (key, e.2)
      keyed.bind fun entries => (fitFields named fields entries).map .object
    | .scalar text style _ =>
      if text.isEmpty && style == .plain then some (.obj []) else none
    | _ => none
  | _, _ => none

/-- The members that the entries of a mapping give to fields. A field must not be given twice;
entries for no field are passed over. -/
def fitFields (named : List (Nat × Node)) :
    List (String × Presence × Shape) → List (String × Node) → Option (List (String × Json))
  | [], _ => some []
  | (key, _, shape) :: fields, entries =>
    match entriesOf key entries with
    | [] => fitFields named fields entries
    | [n] =>
      match fit named shape n, fitFields named fields entries with
      | some v, some members => some ((key, v) :: members)
      | _, _ => none
    | _ => none

end

/-- Reads the value of a document. One without content counts as an empty record. -/
def Document.read {α : Type} (c : Codec α) (d : Document) : Option α :=
  match d.root with
  | none => c.decode (.obj [])
  | some root => (fit d.named c.shape root).bind c.decode

end StorageControl.Yaml
