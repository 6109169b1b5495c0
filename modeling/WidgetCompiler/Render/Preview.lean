import WidgetCompiler.Control.Basic
import WidgetCompiler.Markup.Escape
import WidgetCompiler.Render.Plan

/-!
# Previews

`Plan.preview` gives the markup that a plan shows when every control holds a given value.
-/

namespace WidgetCompiler.Render

open Text Markup

/-- The value as it is written into markup. -/
def Escape.apply : Escape → Text → Text
  | html, t => escapeText t
  | attr, t => escapeText t
  | url, t => escapeUrl t

/-- What a name can be bound to. -/
inductive Slot
  | text (value : Text)
  | link (address : Text)
  | null
deriving DecidableEq, Repr

namespace Slot

/-- The text of what a name is bound to. -/
def asText : Slot → Text
  | text t => t
  | link t => t
  | null => []

/-- The address in what a name is bound to. -/
def asUrl : Slot → Text
  | link t => t
  | _ => []

end Slot

/-- The text that a control holds. -/
def settingText (values : Dictionary DefaultValue) (id : Text) : Text :=
  ((values.find? id).map DefaultValue.asText).getD []

/-- The address that a control holds, if it holds one. -/
def settingUrl? (values : Dictionary DefaultValue) (id : Text) : Option Text :=
  match values.find? id with
  | some (.url address) => if address.isEmpty then none else some address
  | _ => none

/-- What a source gives when the controls hold the given values. -/
def Source.evaluate (values : Dictionary DefaultValue) : Source → Slot
  | .setting id => match values.find? id with
    | some (.url address) => .link address
    | some value => .text value.asText
    | none => .null
  | .settingOr id fallback =>
    let value := settingText values id
    .text (if value.isEmpty then fallback else value)
  | .linkOrNull id => match settingUrl? values id with
    | some address => .link address
    | none => .null
  | .urlOr id fallback => .link ((settingUrl? values id).getD fallback)

/-- What the names are bound to; of two bindings of a name the later counts. -/
def environment (values : Dictionary DefaultValue) (bindings : List Binding) : Dictionary Slot :=
  Dictionary.ofList (bindings.map fun b => (b.var, b.source.evaluate values))

/-- What a name is bound to, or nothing. -/
def slotOf (env : Dictionary Slot) (var : Text) : Slot := (env.find? var).getD .null

/-- The text of a value. -/
def Value.evaluate (values : Dictionary DefaultValue) (env : Dictionary Slot) : Value → Text
  | .setting id => settingText values id
  | .var name => (slotOf env name).asText
  | .url name => (slotOf env name).asUrl

/-- The markup that parts show.  The attributes of a link are left out, as no default asks for
them. -/
def previewParts (values : Dictionary DefaultValue) (env : Dictionary Slot) : List Part → Text
  | [] => []
  | .markup t :: ps => t ++ previewParts values env ps
  | .echo value escape :: ps =>
    escape.apply (value.evaluate values env) ++ previewParts values env ps
  | .linkAttributes _ :: ps => previewParts values env ps
  | .ifSet var body :: ps =>
    (if (slotOf env var).asText.isEmpty then [] else previewParts values env body)
      ++ previewParts values env ps

/-- The markup that the plan shows when the controls hold the given values. -/
def Plan.preview (p : Plan) (values : Dictionary DefaultValue) : Text :=
  previewParts values (environment values p.bindings) p.parts

end WidgetCompiler.Render
