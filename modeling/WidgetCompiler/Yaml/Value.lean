import WidgetCompiler.Markup.Reference
import WidgetCompiler.Yaml.Node

/-!
# Values in documents

What a node means depends on what is asked for.  Every scalar is a text as it is written.  A number,
a truth value or nothing is written plain, or as a literal block that carries the tag of what it is.
An empty place can stand for an empty list or an empty record.

A record is a mapping from names, each of which may occur once.  What a record is not asked for does
not matter.
-/

namespace WidgetCompiler.Yaml

open Text

/-! ## Numbers and truth values -/

/-- The words for nothing. -/
def nullWords : List Text := ["~", "null", "Null", "NULL"]

/-- The words for yes. -/
def trueWords : List Text := ["true", "True", "TRUE"]

/-- The words for no. -/
def falseWords : List Text := ["false", "False", "FALSE"]

/-- The value of digits to a base, if there are any and all of them are. -/
def digitsValue? (base : Nat) (digits : Text) : Option Nat :=
  let value (c : Char) : Nat :=
    if c.isDigit then c.toNat - 48
    else if c.isAlpha then c.toLower.toNat - 87
    else base
  if digits.isEmpty || digits.any (value · ≥ base) then none
  else some (digits.foldl (fun n c => base * n + value c) 0)

/-- The prefixes of numbers to other bases. -/
def basePrefixes : List (Text × Nat) := [("0x", 16), ("0o", 8), ("0b", 2)]

/-- Whether a text is made of digits that are no number, because the first one is a zero. -/
def hasLeadingZero (t : Text) : Bool :=
  let t := match t with
    | '+' :: r => r
    | '-' :: r => r
    | t => t
  t.length > 1 && t.head? == some '0' && t.all Char.isDigit

/-- A number without a sign or with a plus, if it is below a bound. -/
def unsigned? (bound : Nat) (t : Text) : Option Nat :=
  let body := match t with
    | '+' :: r => r
    | t => t
  let based := basePrefixes.findSome? fun (mark, base) =>
    ((after? mark body).bind (digitsValue? base)).filter (· < bound)
  match based with
  | some n => some n
  | none => if hasLeadingZero t then none else (digitsValue? 10 body).filter (· < bound)

/-- The bound of the numbers that a field can hold. -/
def fieldBound : Nat := Nat.pow 2 64

/-- A node together with the nodes that aliases in it stand for. -/
structure Value where
  node : Node
  anchored : List (Nat × Node) := []

/-- The value of a document. -/
def Document.value (d : Document) : Value := ⟨d.root, d.anchored⟩

namespace Value

/-- The node, or the node that the alias stands for. -/
def content (v : Value) : Node :=
  match v.node with
  | .alias number => (v.anchored.lookup number).getD .missing
  | n => n

/-- A node inside of a value. -/
def part (v : Value) (n : Node) : Value := { v with node := n }

/-- The text of a scalar. -/
def text? (v : Value) : Option Text :=
  match v.content with
  | .scalar t _ _ => some t
  | _ => none

/-- The text of a scalar that can stand for something of a common kind. -/
def textOf? (kind : Text) (v : Value) : Option Text :=
  match v.content with
  | .scalar t .plain _ => some t
  | .scalar t .literal tag => if tag = some (commonTag kind) then some t else none
  | _ => none

/-- Whether nothing is written. -/
def isBlank (v : Value) : Bool :=
  match v.content with
  | .missing => true
  | .scalar t .plain _ => t.isEmpty
  | _ => false

/-- A truth value. -/
def bool? (v : Value) : Option Bool :=
  (v.textOf? "bool").bind fun t =>
    if trueWords.contains t then some true
    else if falseWords.contains t then some false
    else none

/-- A number. -/
def nat? (v : Value) : Option Nat := (v.textOf? "int").bind (unsigned? fieldBound)

/-- A list of values. -/
def list? (v : Value) : Option (List Value) :=
  match v.content with
  | .sequence items => some (items.map v.part)
  | _ => if v.isBlank then some [] else none

/-- A list of what `f` reads. -/
def listOf? {α : Type} (f : Value → Option α) (v : Value) : Option (List α) :=
  v.list?.bind (·.mapM f)

/-- What `f` reads, or nothing where nothing is written or a word for nothing.  What has the tag for
nothing must be such a word, and with another tag the words are texts. -/
def optional? {α : Type} (f : Value → Option α) (v : Value) : Option (Option α) :=
  match v.content with
  | .missing => some none
  | .scalar t .plain none =>
    if t.isEmpty || nullWords.contains t then some none else (f v).map some
  | .scalar t .plain (some tag) =>
    if tag = commonTag "null" then if nullWords.contains t then some none else none
    else (f v).map some
  | _ => (f v).map some

/-- The entries of a mapping from texts. -/
def entries? (v : Value) : Option (List (Text × Value)) :=
  match v.content with
  | .mapping entries => entries.mapM fun (k, n) => (v.part k).text?.map fun k => (k, v.part n)
  | _ => if v.isBlank then some [] else none

/-- The values of a record with the given names. -/
def record? (names : List Text) (v : Value) : Option (List (Text × Value)) :=
  match v.entries? with
  | some entries =>
    let known := entries.filter fun (k, _) => names.contains k
    if (known.map (·.1)).Nodup then some known else none
  | none => none

end Value

/-- A field that a record has to have. -/
def required? {α : Type} (f : Value → Option α) (name : Text) (record : List (Text × Value)) :
    Option α :=
  (record.lookup name).bind f

/-- A field with a value for when it is left out. -/
def fieldOr? {α : Type} (f : Value → Option α) (default : α) (name : Text)
    (record : List (Text × Value)) : Option α :=
  match record.lookup name with
  | some v => f v
  | none => some default

end WidgetCompiler.Yaml
