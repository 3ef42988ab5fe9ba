/-
# Nodes

A document is a tree of scalars, sequences and mappings. A node may be given a name, and named
nodes may be referred to in other places. Names may be given again, so a reference holds the number
of the node that is meant, in the order in which the named nodes start.
-/
import StorageControl.Yaml.Token

namespace StorageControl.Yaml

/-! ## Trees -/

/-- A node: a scalar with its tag, a sequence, a mapping, or a reference to a named node. -/
inductive Node where
  | scalar (text : String) (style : ScalarStyle) (tag : Option String)
  | sequence (items : List Node)
  | mapping (entries : List (Node × Node))
  | alias (number : Nat)
deriving Inhabited

/-- The empty scalar, which stands where a node is left out. -/
def Node.empty : Node :=
  .scalar "" .plain none

/-- What is left of the tokens, with the names given so far, the nodes that have them as far as
they are built, and what the handles of tags stand for. -/
structure Builder where
  tokens : List Token
  names : List String := []
  named : List (Nat × Node) := []
  handles : List (String × String) := []

namespace Builder

/-- The builder without the next token. -/
def skip (b : Builder) : Builder :=
  { b with tokens := b.tokens.tail }

/-- The next token. -/
def head? (b : Builder) : Option Token :=
  b.tokens.head?

/-- The next token is one of the given ones, or there is none. -/
def isAt (b : Builder) (ts : List Token) : Bool :=
  b.head?.all fun t => ts.contains t

/-! ## Properties -/

/-- A name and a tag that stand before a node. -/
structure Properties where
  anchor : Option String := none
  tag : Option (String × String) := none

/-- Reads the properties of a node, in either order. -/
def properties (b : Builder) : Properties × Builder :=
  match b.tokens with
  | .anchor a :: .tag h s :: rest => (⟨some a, some (h, s)⟩, { b with tokens := rest })
  | .tag h s :: .anchor a :: rest => (⟨some a, some (h, s)⟩, { b with tokens := rest })
  | .anchor a :: rest => (⟨some a, none⟩, { b with tokens := rest })
  | .tag h s :: rest => (⟨none, some (h, s)⟩, { b with tokens := rest })
  | _ => ({}, b)

/-- What a tag stands for. A tag whose handle is not known stands for nothing. -/
def expand (b : Builder) : Option (String × String) → Option (Option String)
  | none => some none
  | some (handle, suffix) =>
    if handle.isEmpty then some (some suffix)
    else
      match b.handles.find? (·.1 == handle) with
      | some (_, expansion) => some (some (expansion ++ suffix))
      | none => none

/-- The number of the node that a name was given to last. -/
def number? (b : Builder) (name : String) : Option Nat :=
  let older := b.names.dropWhile (· != name)
  if older.isEmpty then none else some (older.length - 1)

/-- Remembers that a name is given, from the start of its node on. -/
def announce (b : Builder) : Option String → Builder
  | some name => { b with names := name :: b.names }
  | none => b

/-- Remembers a node that has a name, under the number that it has since its start. -/
def record (b : Builder) (name : Option String) (number : Nat) (node : Node) : Node × Builder :=
  if name.isSome then (node, { b with named := (number, node) :: b.named }) else (node, b)

/-! ## Nodes -/

mutual

/-- Builds a node. Indented sequences and mappings may stand only where `block` says so, and the
entries of a sequence may stand in the column of its key where `flat` says so. -/
def node (block flat : Bool) : (fuel : Nat) → Builder → Option (Node × Builder)
  | 0, _ => none
  | fuel + 1, b =>
    match b.head? with
    | some (.alias name) =>
      (b.number? name).map fun number => (.alias number, b.skip)
    | _ =>
      let (properties, b) := b.properties
      match b.expand properties.tag with
      | none => none
      | some tag =>
        let number := b.names.length
        let b := b.announce properties.anchor
        let built : Option (Node × Builder) :=
          match b.head? with
          | some (.scalar text style) => some (.scalar text style tag, b.skip)
          | some .bracketOpen => (bracketItems true fuel b.skip).map fun (l, b) => (.sequence l, b)
          | some .braceOpen => (braceEntries true fuel b.skip).map fun (l, b) => (.mapping l, b)
          | some .entry =>
            if flat then (flatItems fuel b).map fun (l, b) => (.sequence l, b)
            else if properties.anchor.isSome || tag.isSome then some (.scalar "" .plain tag, b)
            else none
          | t =>
            if block && t == some .sequenceStart then
              (blockItems fuel b.skip).map fun (l, b) => (.sequence l, b)
            else if block && t == some .mappingStart then
              (blockEntries fuel b.skip).map fun (l, b) => (.mapping l, b)
            else if properties.anchor.isSome || tag.isSome then some (.scalar "" .plain tag, b)
            else none
        built.map fun (n, b) => b.record properties.anchor number n

/-- Builds a node, or the empty scalar if one of the given tokens comes next. -/
def nodeUnless (ends : List Token) (block flat : Bool) :
    (fuel : Nat) → Builder → Option (Node × Builder)
  | 0, _ => none
  | fuel + 1, b => if b.isAt ends then some (.empty, b) else node block flat fuel b

/-- Builds the items of an indented sequence, up to and with its end. -/
def blockItems : (fuel : Nat) → Builder → Option (List Node × Builder)
  | 0, _ => none
  | fuel + 1, b =>
    match b.head? with
    | some .entry => do
      let (item, b) ← nodeUnless [.entry, .blockEnd] true false fuel b.skip
      let (items, b) ← blockItems fuel b
      return (item :: items, b)
    | some .blockEnd => some ([], b.skip)
    | _ => none

/-- Builds the items of a sequence in the column of its key. -/
def flatItems : (fuel : Nat) → Builder → Option (List Node × Builder)
  | 0, _ => none
  | fuel + 1, b =>
    match b.head? with
    | some .entry => do
      let (item, b) ← nodeUnless [.entry, .key, .value, .blockEnd] true false fuel b.skip
      let (items, b) ← flatItems fuel b
      return (item :: items, b)
    | _ => some ([], b)

/-- Builds the entries of an indented mapping, up to and with its end. -/
def blockEntries : (fuel : Nat) → Builder → Option (List (Node × Node) × Builder)
  | 0, _ => none
  | fuel + 1, b =>
    match b.head? with
    | some .key => do
      let (key, b) ← nodeUnless [.key, .value, .blockEnd] true true fuel b.skip
      let (value, b) ←
        if b.head? == some .value then
          nodeUnless [.key, .value, .blockEnd] true true fuel b.skip
        else some (Node.empty, b)
      let (entries, b) ← blockEntries fuel b
      return ((key, value) :: entries, b)
    | some .blockEnd => some ([], b.skip)
    | _ => none

/-- Builds the items of a sequence in brackets, up to and with its end. -/
def bracketItems (first : Bool) : (fuel : Nat) → Builder → Option (List Node × Builder)
  | 0, _ => none
  | fuel + 1, b =>
    if b.head? == some .bracketClose then some ([], b.skip)
    else if !first && b.head? != some .comma then none
    else
      let b := if first then b else b.skip
      match b.head? with
      | some .bracketClose => some ([], b.skip)
      | some .key => do
        let (entry, b) ← bracketPair fuel b.skip
        let (items, b) ← bracketItems false fuel b
        return (.mapping [entry] :: items, b)
      | _ => do
        let (item, b) ← node false false fuel b
        let (items, b) ← bracketItems false fuel b
        return (item :: items, b)

/-- Builds a mapping with one entry inside a sequence in brackets, after the mark of its key. -/
def bracketPair : (fuel : Nat) → Builder → Option ((Node × Node) × Builder)
  | 0, _ => none
  | fuel + 1, b => do
    let (key, b) ←
      if b.isAt [.value, .comma, .bracketClose] then some (Node.empty, b.skip)
      else node false false fuel b
    if b.head? == some .value then do
      let (value, b) ← nodeUnless [.comma, .bracketClose] false false fuel b.skip
      return ((key, value), b)
    else return ((key, .empty), b)

/-- Builds the entries of a mapping in braces, up to and with its end. -/
def braceEntries (first : Bool) : (fuel : Nat) → Builder → Option (List (Node × Node) × Builder)
  | 0, _ => none
  | fuel + 1, b =>
    if b.head? == some .braceClose then some ([], b.skip)
    else if !first && b.head? != some .comma then none
    else
      let b := if first then b else b.skip
      match b.head? with
      | some .braceClose => some ([], b.skip)
      | some .key => do
        let (key, b) ← nodeUnless [.value, .comma, .braceClose] false false fuel b.skip
        let (value, b) ←
          if b.head? == some .value then
            nodeUnless [.comma, .braceClose] false false fuel b.skip
          else some (Node.empty, b)
        let (entries, b) ← braceEntries false fuel b
        return ((key, value) :: entries, b)
      | _ => do
        let (key, b) ← node false false fuel b
        let (entries, b) ← braceEntries false fuel b
        return ((key, .empty) :: entries, b)

end

end Builder

/-! ## Documents -/

/-- The tree of a document, or nothing for one that is empty, and its named nodes. -/
structure Document where
  root : Option Node
  named : List (Nat × Node) := []

namespace Document

/-- What the handles of tags stand for unless a document says otherwise. -/
def defaultHandles : List (String × String) :=
  [("!", "!"), ("!!", "tag:yaml.org,2002:")]

/-- Reads the directives of a document: at most one version, which must be known, and at most one
expansion for each handle. -/
def directives (versioned : Bool) (handles : List (String × String)) :
    List Token → Option (List (String × String) × List Token)
  | .version major minor :: rest =>
    if versioned || major ≠ 1 || (minor ≠ 1 && minor ≠ 2) then none
    else directives true handles rest
  | .handle name expansion :: rest =>
    if handles.any (·.1 == name) then none
    else directives versioned ((name, expansion) :: handles) rest
  | rest => some (handles, rest)

/-- Only marks for the end of a document are left. -/
def isEnd (tokens : List Token) : Bool :=
  tokens.all (· == .documentEnd)

/-- The tokens up to the next directive or document hold nothing. -/
def hasNoContent : List Token → Bool
  | [] => true
  | t :: _ =>
    match t with
    | .version _ _ | .handle _ _ | .documentStart | .documentEnd => true
    | _ => false

/-- Builds the content of a document, after which nothing may come. -/
def content (handles : List (String × String)) (tokens : List Token) : Option Document :=
  match Builder.node true false (8 * tokens.length + 8) { tokens, handles } with
  | some (root, b) => if isEnd b.tokens then some { root := some root, named := b.named } else none
  | none => none

/-- The only document that is made of some tokens. -/
def ofTokens? (tokens : List Token) : Option Document :=
  match tokens with
  | [] => some { root := none }
  | first :: _ =>
    match directives false [] tokens with
    | none => none
    | some (handles, rest) =>
      let known := handles ++ defaultHandles.filter fun h => !handles.any (·.1 == h.1)
      match first, rest with
      | _, .documentStart :: rest =>
        if hasNoContent rest then
          if isEnd rest then some { root := some .empty } else none
        else content known rest
      | .version _ _, _ | .handle _ _, _ => none
      | _, _ => content known tokens

/-- The only document of a text. -/
def parse? (text : String) : Option Document :=
  (tokens? text.toList).bind ofTokens?

end Document

end StorageControl.Yaml
