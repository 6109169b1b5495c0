import WidgetCompiler.Yaml.Token

/-!
# Documents

A `Node` is what a document holds: a scalar, a sequence or a mapping.  `Document.read?` reads a text
that holds one document at most; a text without any gives a `missing` root.

An alias stands for a node that carries an anchor.  It may stand inside of that node, so it is kept
as the number of its anchor, and a document keeps the anchored nodes beside its root.
-/

namespace WidgetCompiler.Yaml

open Text

/-- A piece of a document. -/
inductive Node
  /-- Nothing at all, where a document could stand. -/
  | missing
  | alias (anchor : Nat)
  | scalar (text : Text) (style : Style) (tag : Option Text)
  | sequence (items : List Node)
  | mapping (entries : List (Node × Node))
deriving Repr, Inhabited

/-- A document: its root, and the anchored nodes under their numbers.  Of two nodes with one number
the first in the list counts. -/
structure Document where
  root : Node := .missing
  anchored : List (Nat × Node) := []
deriving Repr

namespace Node

/-- What is there where nothing is written. -/
def empty : Node := .scalar [] .plain none

/-- The state of reading. -/
structure Reading where
  /-- The tokens that are left. -/
  tokens : List Token
  /-- The handles of the document's tags. -/
  handles : Handles
  /-- The names of the anchors met so far with their numbers, the latest first. -/
  anchors : List (Text × Nat) := []
  /-- The anchored nodes met so far with the numbers of their anchors, the earliest first; one that
  is not read to its end is missing yet. -/
  anchored : Array (Nat × Node) := #[]

/-- A step of reading. -/
abbrev Read := StateT Reading Option

/-- The next token. -/
def peek : Read (Option Token) := do return (← get).tokens.head?

/-- Goes on behind the next token. -/
def advance : Read Unit := modify fun r => { r with tokens := r.tokens.drop 1 }

/-- Goes on behind the next token if it is the given one. -/
def accept (t : Token) : Read Bool := do
  if (← peek) = some t then
    advance
    return true
  else return false

/-- Remembers an anchor, and says where its node will stand among the anchored ones.  The anchor's
number is how many names of anchors are known before it. -/
def announce (name : Text) : Read Nat := do
  let r ← get
  let number := (r.anchors.map (·.1)).eraseDups.length
  set { r with anchors := (name, number) :: r.anchors
               anchored := r.anchored.push (number, .missing) }
  return r.anchored.size

/-- Puts an anchored node where it was announced. -/
def settle (place : Nat) (n : Node) : Read Unit :=
  modify fun r => { r with anchored := r.anchored.modify place fun (number, _) => (number, n) }

/-- The tokens that may stand before a node: its anchor and its tag. -/
def properties : Nat → Option Text → Option Text → Read (Option Text × Option Text)
  | 0, anchor, tag => return (anchor, tag)
  | n + 1, anchor, tag => do
    match ← peek with
    | some (.anchor name) =>
      if anchor.isSome then return (anchor, tag)
      else
        advance
        properties n (some name) tag
    | some (.tag handle suffix) =>
      if tag.isSome then return (anchor, tag)
      else
        advance
        match tagName? (← get).handles handle suffix with
        | some name => properties n anchor (some name)
        | none => failure
    | _ => return (anchor, tag)

/-- Whether nothing is written where a node could stand before the next token. -/
def nothingBefore (stops : List Token) : Read Bool := do
  match ← peek with
  | some t => return stops.contains t
  | none => return true

mutual

/-- Reads a node.  In a block it may be a block itself, and behind a key a sequence whose items
stand no further in than the key. -/
def node (block indentless : Bool) (fuel : Nat) : Read Node := do
  match fuel with
  | 0 => failure
  | fuel + 1 =>
    match ← peek with
    | some (.alias name) =>
      advance
      match (← get).anchors.lookup name with
      | some number => return .alias number
      | none => failure
    | _ =>
      let (anchor, tag) ← properties 2 none none
      match anchor with
      | some name =>
        let place ← announce name
        let n ← content block indentless true tag fuel
        settle place n
        return n
      | none => content block indentless tag.isSome tag fuel

/-- Reads a node behind its anchor and its tag.  An exclamation mark alone is no tag of a scalar. -/
def content (block indentless mayBeEmpty : Bool) (tag : Option Text) (fuel : Nat) :
    Read Node := do
  match fuel with
  | 0 => failure
  | fuel + 1 =>
    match ← peek with
    | some .blockEntry =>
      if indentless then return .sequence (← indentlessItems fuel)
      else if mayBeEmpty then return .scalar [] .plain tag
      else failure
    | some (.scalar text style) =>
      advance
      return .scalar text style (tag.filter (· ≠ ['!']))
    | some .flowSequenceStart =>
      advance
      return .sequence (← flowItems true fuel)
    | some .flowMappingStart =>
      advance
      return .mapping (← flowEntries true fuel)
    | some .blockSequenceStart =>
      if block then
        advance
        return .sequence (← blockItems fuel)
      else if mayBeEmpty then return .scalar [] .plain tag
      else failure
    | some .blockMappingStart =>
      if block then
        advance
        return .mapping (← blockEntries fuel)
      else if mayBeEmpty then return .scalar [] .plain tag
      else failure
    | _ => if mayBeEmpty then return .scalar [] .plain tag else failure

/-- Reads the items of a block sequence. -/
def blockItems (fuel : Nat) : Read (List Node) := do
  match fuel with
  | 0 => failure
  | fuel + 1 =>
    match ← peek with
    | some .blockEntry =>
      advance
      let item ← if ← nothingBefore [.blockEntry, .blockEnd] then pure empty
        else node true false fuel
      return item :: (← blockItems fuel)
    | some .blockEnd =>
      advance
      return []
    | _ => failure

/-- Reads the items of a sequence that is not set off. -/
def indentlessItems (fuel : Nat) : Read (List Node) := do
  match fuel with
  | 0 => failure
  | fuel + 1 =>
    match ← peek with
    | some .blockEntry =>
      advance
      let item ← if ← nothingBefore [.blockEntry, .key, .value, .blockEnd] then pure empty
        else node true false fuel
      return item :: (← indentlessItems fuel)
    | _ => return []

/-- Reads the entries of a block mapping. -/
def blockEntries (fuel : Nat) : Read (List (Node × Node)) := do
  match fuel with
  | 0 => failure
  | fuel + 1 =>
    let part : Read Node := do
      if ← nothingBefore [.key, .value, .blockEnd] then pure empty else node true true fuel
    match ← peek with
    | some .key =>
      advance
      let k ← part
      let v ← if ← accept .value then part else pure empty
      return (k, v) :: (← blockEntries fuel)
    | some .blockEnd =>
      advance
      return []
    | _ => failure

/-- Reads the items of a sequence in brackets.  Behind the mark of a key that is not written the
next mark is passed over. -/
def flowItems (first : Bool) (fuel : Nat) : Read (List Node) := do
  match fuel with
  | 0 => failure
  | fuel + 1 =>
    if ← accept .flowSequenceEnd then return []
    if !first then
      if !(← accept .flowEntry) then failure
    match ← peek with
    | some .flowSequenceEnd =>
      advance
      return []
    | some .key =>
      advance
      let k ← if ← nothingBefore [.value, .flowEntry, .flowSequenceEnd] then
          advance
          pure empty
        else node false false fuel
      let v ← if ← accept .value then
          if ← nothingBefore [.flowEntry, .flowSequenceEnd] then pure empty
          else node false false fuel
        else pure empty
      return .mapping [(k, v)] :: (← flowItems false fuel)
    | _ =>
      let item ← node false false fuel
      return item :: (← flowItems false fuel)

/-- Reads the entries of a mapping in braces. -/
def flowEntries (first : Bool) (fuel : Nat) : Read (List (Node × Node)) := do
  match fuel with
  | 0 => failure
  | fuel + 1 =>
    if ← accept .flowMappingEnd then return []
    if !first then
      if !(← accept .flowEntry) then failure
    let part : Read Node := do
      if ← nothingBefore [.value, .flowEntry, .flowMappingEnd] then pure empty
      else node false false fuel
    match ← peek with
    | some .flowMappingEnd =>
      advance
      return []
    | some .key =>
      advance
      let k ← part
      let v ← if ← accept .value then part else pure empty
      return (k, v) :: (← flowEntries false fuel)
    | _ =>
      let k ← node false false fuel
      return (k, empty) :: (← flowEntries false fuel)

end

end Node

namespace Document

/-- The document with the node that tokens hold, and the tokens behind it. -/
def ofTokens? (handles : Handles) (tokens : List Token) : Option (Document × List Token) :=
  ((Node.node true false (4 * tokens.length + 4)).run { tokens := tokens, handles := handles }).map
    fun (n, r) => ({ root := n, anchored := r.anchored.toList.reverse }, r.tokens)

/-- Whether a token can stand between documents only. -/
def isBetween : Token → Bool
  | .directive _ => true
  | .documentStart => true
  | .documentEnd => true
  | _ => false

/-- The directives that tokens begin with, and the tokens behind them. -/
def takeDirectives : List Token → List Directive × List Token
  | .directive d :: tokens =>
    let (directives, rest) := takeDirectives tokens
    (d :: directives, rest)
  | tokens => ([], tokens)

/-- The document that tokens hold, and the tokens behind it.  Behind directives there must be the
mark that begins a document. -/
def first? (tokens : List Token) : Option (Document × List Token) :=
  match takeDirectives tokens with
  | ([], []) => some ({}, [])
  | (directives, .documentStart :: body) =>
    match handlesOf? directives with
    | none => none
    | some handles =>
      if body.head?.all isBetween then some ({ root := .empty }, body) else ofTokens? handles body
  | ([], tokens) => ofTokens? commonHandles tokens
  | _ => none

/-- The document that a text holds; nothing if the text is malformed or holds more than one. -/
def read? (s : Text) : Option Document :=
  match (tokens? s).bind first? with
  | some (d, rest) => if rest.all (· == .documentEnd) then some d else none
  | none => none

end Document

end WidgetCompiler.Yaml
