import WidgetCompiler.Catalog.Builtin
import WidgetCompiler.Control.Basic
import WidgetCompiler.Proofs.Text.Decimal
import Mathlib.Tactic.MkIffOfInductiveProp

/-!
# What the built-in templates have in common

A template is regular when its fields can be told apart by ids without digits, and when every field
with a known meaning holds the kind of value that goes with it.  All templates that the built-in
catalog resolves to are regular (`regular_builtin`): there are finitely many of them, one for each
key, and each is checked.
-/

namespace WidgetCompiler

open Text

/-- The ids of the fields that hold a text of their element or its tag. -/
def plainFieldIds : List Text := textFieldIds ++ (["alt_text", "placeholder", "html_tag"] : List Text)

/-- The ids of the fields that hold an address. -/
def urlFieldIds : List Text := addressFieldIds ++ (["image", "link"] : List Text)

/-- The field holds the kind of value that goes with its id, and asks for no link by itself where
a link is something to add. -/
@[mk_iff]
structure Field.Regular (f : Field) : Prop where
  digits : digitFree f.id = true
  plain : f.id ∈ plainFieldIds → f.kind.holdsUrl = false
  url : f.id ∈ urlFieldIds → f.kind.holdsUrl = true
  unlinked : f.id ∈ (["link", "button_link"] : List Text) → f.default = none
  headings : f.id = "html_tag".toList → ∀ options ∈ f.options, ElementKind.headingTags ⊆ options

instance (f : Field) : Decidable f.Regular := decidable_of_iff' _ (Field.regular_iff f)

/-- The fields are regular and no two of them share an id. -/
@[mk_iff]
structure Template.Regular (t : Template) : Prop where
  distinct : t.fieldIds.Nodup
  fields : ∀ f ∈ t.allFields, f.Regular

instance (t : Template) : Decidable t.Regular := decidable_of_iff' _ (Template.regular_iff t)

namespace Catalog

/-- What holds of the templates under all keys holds of every template that is resolved to. -/
theorem of_keys {c : Catalog} {P : Template → Prop} (hfallback : c.fallback ∈ c.tags)
    (hkeys : ∀ key ∈ c.tags, c.keyFor key = key) (h : ∀ key ∈ c.tags, P (c.resolve key))
    (tag : Text) : P (c.resolve tag) := by
  have hmem : c.keyFor tag ∈ c.tags := by
    unfold keyFor
    split
    · next hhas => exact (Dictionary.has_iff_mem_keys _ _).1 hhas
    · exact hfallback
  have hresolve : c.resolve (c.keyFor tag) = c.resolve tag := by
    rw [resolve, hkeys _ hmem, resolve]
  exact hresolve ▸ h _ hmem

theorem regular_builtin (tag : Text) : (builtin.resolve tag).Regular :=
  of_keys (by decide +kernel) (by decide +kernel) (by decide +kernel) tag

end Catalog

/-- A field that a template has under an id. -/
theorem Template.exists_of_hasField {t : Template} {id : Text} (h : t.hasField id = true) :
    ∃ f ∈ t.allFields, f.id = id := by
  obtain ⟨f, hf⟩ := Option.isSome_iff_exists.1 h
  exact ⟨f, List.mem_of_find?_eq_some hf, by simpa using List.find?_some hf⟩

end WidgetCompiler
