import WidgetCompiler.Failure
import WidgetCompiler.Yaml.Printer

/-!
# Catalogs in documents

A document gives the fallback tag and the templates under their tags.  `Template.toYaml` writes one
template as a document of its own.
-/

namespace WidgetCompiler

open Text Yaml

/-- The names of what a field says, in a document. -/
def Field.names : List Text :=
  ["id", "label", "type", "default", "options", "selector", "property", "dynamic"]

/-- The name of a kind that a tag gives; a tag that begins with no exclamation mark gives none. -/
def kindOfTag? : Option Text → Option Text
  | some ('!' :: name) => some (if name.isEmpty then ['!'] else name)
  | _ => none

/-- The kind of a field that a value gives.  A tag names the kind of a value that holds nothing
else. -/
def FieldKind.ofValue? (v : Value) : Option FieldKind :=
  match v.content with
  | .scalar t style tag =>
    match kindOfTag? tag with
    | some name =>
      if style = .plain ∧ (t.isEmpty || nullWords.contains t) then ofConstant? name else none
    | none => ofConstant? t
  | _ => none

/-- The field that a value gives. -/
def Field.ofValue? (v : Value) : Option Field := do
  let r ← v.record? names
  return {
    id := ← required? Value.text? "id" r
    label := ← required? Value.text? "label" r
    kind := ← required? FieldKind.ofValue? "type" r
    default := ← fieldOr? (Value.optional? Value.text?) none "default" r
    options := ← fieldOr? (Value.optional? (Value.listOf? Value.text?)) none "options" r
    selector := ← fieldOr? (Value.optional? Value.text?) none "selector" r
    property := ← fieldOr? (Value.optional? Value.text?) none "property" r
    dynamic := ← fieldOr? Value.bool? false "dynamic" r }

/-- The names of what a template says, in a document. -/
def Template.names : List Text := ["tag", "extends", "label", "content", "style", "advanced"]

/-- The template that a value gives. -/
def Template.ofValue? (v : Value) : Option Template := do
  let r ← v.record? names
  let fields := Value.listOf? Field.ofValue?
  return {
    tag := ← fieldOr? Value.text? [] "tag" r
    base := ← fieldOr? (Value.optional? Value.text?) none "extends" r
    label := ← fieldOr? (Value.optional? Value.text?) none "label" r
    content := ← fieldOr? fields [] "content" r
    style := ← fieldOr? fields [] "style" r
    advanced := ← fieldOr? fields [] "advanced" r }

/-- The templates that a value gives under their tags. -/
def Template.allOfValue? (v : Value) : Option (Dictionary Template) := do
  let entries ← v.entries?
  let templates ← entries.mapM fun (tag, v) => (Template.ofValue? v).map fun t => (tag, t)
  return Dictionary.ofList templates

namespace Catalog

/-- The fallback tag and the templates that a value gives. -/
def partsOfValue? (v : Value) : Option (Text × Dictionary Template) := do
  let r ← v.record? ["fallback", "templates"]
  return (← required? Value.text? "fallback" r, ← required? Template.allOfValue? "templates" r)

/-- The checked catalog that a document gives. -/
def ofYaml (s : Text) : Except Failure Catalog :=
  match (Document.read? s).bind (partsOfValue? ·.value) with
  | none => .error .document
  | some (fallback, templates) => match make? fallback templates with
    | .ok c => .ok c
    | .error e => .error (.catalog e)

end Catalog

/-! ## Writing a template -/

/-- An entry of a record for a text. -/
def textEntry (name t : Text) : List (Text × Node) := [(name, .ofText t)]

/-- An entry of a record for a text, if there is one. -/
def optionalEntry (name : Text) (t : Option Text) : List (Text × Node) :=
  (t.map (textEntry name)).getD []

/-- An entry of a record for a list, if there is one. -/
def listEntry (name : Text) (items : Option (List Node)) : List (Text × Node) :=
  (items.map fun items => [(name, .sequence items)]).getD []

/-- An entry of a record for fields, if there are any. -/
def fieldsEntry (name : Text) (fields : List Node) : List (Text × Node) :=
  if fields.isEmpty then [] else listEntry name (some fields)

/-- An entry of a record for something that holds, if it does. -/
def flagEntry (name : Text) (b : Bool) : List (Text × Node) :=
  if b then [(name, .ofBool b)] else []

/-- The field as a node, without what it leaves open. -/
def Field.toNode (f : Field) : Node :=
  .record (textEntry "id" f.id ++ textEntry "label" f.label ++ textEntry "type" f.kind.constant
    ++ optionalEntry "default" f.default
    ++ listEntry "options" (f.options.map fun options => options.map Node.ofText)
    ++ optionalEntry "selector" f.selector ++ optionalEntry "property" f.property
    ++ flagEntry "dynamic" f.dynamic)

/-- The template as a node, without what it leaves open. -/
def Template.toNode (t : Template) : Node :=
  .record (textEntry "tag" t.tag ++ optionalEntry "extends" t.base ++ optionalEntry "label" t.label
    ++ fieldsEntry "content" (t.content.map Field.toNode)
    ++ fieldsEntry "style" (t.style.map Field.toNode)
    ++ fieldsEntry "advanced" (t.advanced.map Field.toNode))

/-- The template as a document. -/
def Template.toYaml (t : Template) : Text := t.toNode.render

end WidgetCompiler
