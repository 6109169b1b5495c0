import WidgetCompiler.Catalog.Field
import WidgetCompiler.Text.Lowercase

/-!
# Templates

A `Template` lists the fields of the elements with one tag, tab by tab.  `merge` lays a template
over another one that it extends: in each tab its fields replace those of the same id in their
places, and its other fields follow.

`find?_mergeFields` says which field an id then stands for, and `fields_merge` that the tabs do not
mix.
-/

namespace WidgetCompiler

open Text

/-- The fields of the elements with one tag. -/
structure Template where
  tag : Text := []
  /-- The tag whose template this one extends. -/
  base : Option Text := none
  label : Option Text := none
  content : List Field := []
  style : List Field := []
  advanced : List Field := []
deriving DecidableEq, Repr

/-- Whether one of the fields has the given id. -/
def hasId (fields : List Field) (id : Text) : Bool := fields.any (·.id == id)

/-- The fields of `base`, each replaced by the one of the same id in `overlay` if there is one, then
the other fields of `overlay`. -/
def mergeFields (base overlay : List Field) : List Field :=
  base.map (fun f => (overlay.find? (·.id == f.id)).getD f)
    ++ overlay.filter (!hasId base ·.id)

/-- The field found under an id is the one that lies on top. -/
theorem find?_mergeFields (base overlay : List Field) (id : Text) :
    (mergeFields base overlay).find? (·.id == id)
      = (overlay.find? (·.id == id) <|> base.find? (·.id == id)) := by
  have replaced (fs : List Field) :
      (fs.map fun f => (overlay.find? (·.id == f.id)).getD f).find? (·.id == id)
        = (fs.find? (·.id == id)).map fun f => (overlay.find? (·.id == id)).getD f := by
    induction fs with
    | nil => rfl
    | cons f fs ih =>
      have hid : ((overlay.find? (·.id == f.id)).getD f).id = f.id := by
        cases h : overlay.find? (·.id == f.id) with
        | none => rfl
        | some o => simpa using List.find?_some h
      rw [List.map_cons, List.find?_cons, List.find?_cons, hid]
      by_cases hf : f.id = id
      · simp [hf]
      · simp only [beq_eq_false_iff_ne.2 hf, ih]
  have added (hb : base.find? (·.id == id) = none) :
      (overlay.filter (!hasId base ·.id)).find? (·.id == id) = overlay.find? (·.id == id) := by
    rw [List.find?_filter]
    congr 1
    funext o
    by_cases ho : o.id = id
    · have : hasId base o.id = false := by
        rw [ho]
        simpa [hasId] using hb
      simp [ho] at this ⊢
      exact this
    · simp [ho]
  rw [mergeFields, List.find?_append, replaced]
  cases hb : base.find? (·.id == id) with
  | none => rw [added hb]; simp
  | some f => cases overlay.find? (·.id == id) <;> simp

namespace Template

/-- The fields of a tab. -/
def fields (t : Template) : Tab → List Field
  | .content => t.content
  | .style => t.style
  | .advanced => t.advanced

/-- All fields, tab by tab. -/
def allFields (t : Template) : List Field := Tab.all.flatMap t.fields

/-- The label, or the tag in capital letters. -/
def displayLabel (t : Template) : Text := t.label.getD (upperAscii t.tag)

/-- The first field with an id. -/
def field? (t : Template) (id : Text) : Option Field := t.allFields.find? (·.id == id)

/-- Whether there is a field with an id. -/
def hasField (t : Template) (id : Text) : Bool := (t.field? id).isSome

/-- The ids of all fields, tab by tab. -/
def fieldIds (t : Template) : List Text := t.allFields.map (·.id)

/-- The template `child` laid over the template that it extends. -/
def merge (base child : Template) : Template :=
  { tag := child.tag
    base := child.base
    label := child.label <|> base.label
    content := mergeFields base.content child.content
    style := mergeFields base.style child.style
    advanced := mergeFields base.advanced child.advanced }

theorem fields_merge (base child : Template) (tab : Tab) :
    (merge base child).fields tab = mergeFields (base.fields tab) (child.fields tab) := by
  cases tab <;> rfl

end Template

end WidgetCompiler
