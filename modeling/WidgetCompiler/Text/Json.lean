import WidgetCompiler.Text.Basic

/-!
# JSON

A value of JSON, and how it is printed with one item a line and two columns for each level.
-/

namespace WidgetCompiler.Text

/-- A value of JSON. -/
inductive JsonValue
  | bool (b : Bool)
  | number (n : Nat)
  | string (t : Text)
  | array (items : List JsonValue)
  | object (entries : List (Text × JsonValue))
deriving Repr

namespace JsonValue

/-- A digit of a hexadecimal number. -/
def hexDigit (n : Nat) : Char := if n < 10 then Char.ofNat (48 + n) else Char.ofNat (87 + n)

/-- A character as it is written in a string. -/
def escapeChar (c : Char) : Text :=
  if c = '"' then ['\\', '"']
  else if c = '\\' then ['\\', '\\']
  else if c = '\n' then ['\\', 'n']
  else if c = '\r' then ['\\', 'r']
  else if c = '\t' then ['\\', 't']
  else if c = '\x08' then ['\\', 'b']
  else if c = '\x0c' then ['\\', 'f']
  else if c.toNat < 32 then ['\\', 'u', '0', '0', hexDigit (c.toNat / 16), hexDigit (c.toNat % 16)]
  else [c]

/-- A string. -/
def quote (t : Text) : Text := '"' :: t.flatMap escapeChar ++ ['"']

mutual

/-- A value that stands in by so much, from its place on. -/
def renderAt (indent : Text) : JsonValue → Text
  | bool b => if b then "true" else "false"
  | number n => decimal n
  | string t => quote t
  | array [] => "[]"
  | array (v :: vs) => '[' :: renderItems (indent ++ "  ") (v :: vs) ++ '\n' :: indent ++ "]"
  | object [] => "\x7b\x7d"
  | object (e :: es) =>
    '\x7b' :: renderEntries (indent ++ "  ") (e :: es) ++ '\n' :: indent ++ "\x7d"

/-- Items, each on a line of its own. -/
def renderItems (indent : Text) : List JsonValue → Text
  | [] => []
  | v :: vs =>
    '\n' :: indent ++ renderAt indent v ++ (if vs.isEmpty then [] else [','])
      ++ renderItems indent vs

/-- Entries, each on a line of its own. -/
def renderEntries (indent : Text) : List (Text × JsonValue) → Text
  | [] => []
  | (k, v) :: es =>
    '\n' :: indent ++ quote k ++ ':' :: ' ' :: renderAt indent v
      ++ (if es.isEmpty then [] else [',']) ++ renderEntries indent es

end

/-- A value. -/
def render (v : JsonValue) : Text := renderAt [] v

end JsonValue

end WidgetCompiler.Text
