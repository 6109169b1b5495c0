import WidgetCompiler.Catalog.Template
import WidgetCompiler.Text.Dictionary

/-!
# Catalogs

A `Catalog` holds a template for each of some tags, and names the tag whose template serves all
other elements.  A template may extend another one.

`check` says what is wrong with a catalog: no template under the fallback tag, a field whose id is
no identifier or occurs twice in a tab, an unknown base, or templates that extend each other in a
circle.  In a catalog that passes, `resolve` lays each template over the ones that it extends, from
the root of its line down.
-/

namespace WidgetCompiler

open Text

/-- What can be wrong with a catalog. -/
inductive CatalogError
  | noFallback (tag : Text)
  | badFieldId (tag id : Text)
  | duplicateField (tag : Text) (tab : Tab) (id : Text)
  | unknownBase (tag base : Text)
  /-- The tags of a line of templates up to the one that occurs a second time. -/
  | circle (tags : List Text)
deriving DecidableEq, Repr

namespace CatalogError

/-- The tags of a circle in order. -/
def chainText (tags : List Text) : Text := join " -> " tags

/-- The error in words. -/
def message : CatalogError → Text
  | noFallback tag => "Catalog has no fallback entry '" ++ tag ++ "'"
  | badFieldId tag id => "Catalog error: field id '" ++ id ++ "' in template '" ++ tag
      ++ "' must use only letters, digits and '_'"
  | duplicateField tag tab id => "Duplicate control id '" ++ id ++ "' in the " ++ tab.name
      ++ " list of template '" ++ tag ++ "'"
  | unknownBase tag base => "Template '" ++ tag ++ "' extends unknown template '" ++ base ++ "'"
  | circle tags => "Circular template inheritance detected: " ++ chainText tags

end CatalogError

/-- Templates under their tags. -/
structure Catalog where
  /-- The tag whose template serves all elements without one of their own. -/
  fallback : Text
  templates : Dictionary Template
deriving Repr

/-- Whether a text can be part of a control's id. -/
def isIdentifier (id : Text) : Bool := !id.isEmpty && id.all fun c => c.isAlphanum || c == '_'

namespace Catalog

/-- The template under a tag in any letter case. -/
def template? (c : Catalog) (tag : Text) : Option Template := c.templates.find? (lowerAscii tag)

/-- The tags that have a template, in order. -/
def tags (c : Catalog) : List Text := c.templates.keys

/-! ## Lines of templates -/

/-- How many templates stand under none of the given tags. -/
def unseen (c : Catalog) (seen : List Text) : Nat :=
  c.templates.countP fun entry => !seen.contains entry.1

theorem unseen_cons_lt {c : Catalog} {seen : List Text} {tag : Text} {t : Template}
    (ht : c.templates.find? tag = some t) (hs : seen.contains tag = false) :
    c.unseen (tag :: seen) < c.unseen seen := by
  unfold unseen
  generalize c.templates = d at ht
  have mono : ∀ d : Dictionary Template,
      d.countP (fun e => !(tag :: seen).contains e.1) ≤ d.countP (fun e => !seen.contains e.1) :=
    fun d => List.countP_mono_left fun e _ he => by simp_all
  induction d with
  | nil => simp [Dictionary.find?] at ht
  | cons e d ih =>
    rw [List.countP_cons, List.countP_cons]
    obtain ⟨k, v⟩ := e
    rw [Dictionary.find?_cons] at ht
    by_cases hk : tag = k
    · subst hk
      have hm := mono d
      have h₁ : ¬(!(tag :: seen).contains tag) = true := by simp
      have h₂ : (!seen.contains tag) = true := by simpa using hs
      rw [if_neg h₁, if_pos h₂]
      omega
    · rw [if_neg hk] at ht
      have hlt := ih ht
      have he : (!(tag :: seen).contains k) = !seen.contains k := by
        simp [Ne.symm hk]
      simp only [he]
      omega

/-- The template under a tag, the one that it extends, and so on; the line ends before a tag that
was seen. -/
def lineFrom (c : Catalog) (seen : List Text) (tag : Text) : List Template :=
  if hs : seen.contains tag then []
  else match ht : c.templates.find? tag with
    | none => []
    | some t => t :: match t.base with
      | some base =>
        have := unseen_cons_lt ht (Bool.eq_false_iff.2 hs)
        lineFrom c (tag :: seen) base
      | none => []
termination_by c.unseen seen

/-- A line of templates laid over each other, each over the next. -/
def mergeLine : List Template → Template
  | [] => {}
  | [t] => t
  | t :: u :: ts => Template.merge (mergeLine (u :: ts)) t

/-- The tag whose template serves the elements with a tag. -/
def keyFor (c : Catalog) (tag : Text) : Text :=
  if c.templates.has (lowerAscii tag) then lowerAscii tag else c.fallback

/-- The template that serves the elements with a tag, with everything that it inherits. -/
def resolve (c : Catalog) (tag : Text) : Template :=
  match c.lineFrom [] (c.keyFor tag) with
  | [] => { tag := c.keyFor tag }
  | line => mergeLine line

/-! ## Checking -/

/-- Checks the ids of a tab's fields, of which those in `seen` have occurred. -/
def checkFields (tag : Text) (tab : Tab) (seen : List Text) : List Field → Except CatalogError Unit
  | [] => .ok ()
  | f :: fs =>
    if !isIdentifier f.id then .error (.badFieldId tag f.id)
    else if seen.contains f.id then .error (.duplicateField tag tab f.id)
    else checkFields tag tab (f.id :: seen) fs

/-- Checks the fields of the given tabs. -/
def checkTabs (tag : Text) (t : Template) : List Tab → Except CatalogError Unit
  | [] => .ok ()
  | tab :: tabs =>
    match checkFields tag tab [] (t.fields tab) with
    | .ok () => checkTabs tag t tabs
    | .error e => .error e

/-- Follows a line whose tags so far are `seen`, the last one first, and gives the tags of the
whole line if it comes back to one of them. -/
def circle? (c : Catalog) (seen : List Text) : Option Text → Option (List Text)
  | none => none
  | some tag =>
    if hs : seen.contains tag then some (seen.reverse ++ [tag])
    else match ht : c.templates.find? tag with
      | none => none
      | some t =>
        have := unseen_cons_lt ht (Bool.eq_false_iff.2 hs)
        circle? c (tag :: seen) t.base
termination_by c.unseen seen

/-- Checks what a template extends. -/
def checkBase (c : Catalog) (tag : Text) (t : Template) : Except CatalogError Unit :=
  match t.base with
  | none => .ok ()
  | some base =>
    if c.templates.has base then
      match c.circle? [tag] (some base) with
      | some tags => .error (.circle tags)
      | none => .ok ()
    else .error (.unknownBase tag base)

/-- Checks the given templates one after the other. -/
def checkTemplates (c : Catalog) : List (Text × Template) → Except CatalogError Unit
  | [] => .ok ()
  | (tag, t) :: ts =>
    match checkTabs tag t Tab.all with
    | .error e => .error e
    | .ok () => match c.checkBase tag t with
      | .error e => .error e
      | .ok () => c.checkTemplates ts

/-- Says what is wrong with a catalog, the fallback first and then template by template. -/
def check (c : Catalog) : Except CatalogError Unit :=
  if c.templates.has c.fallback then c.checkTemplates c.templates
  else .error (.noFallback c.fallback)

/-! ## Making a catalog -/

/-- The catalog with the given templates under their tags, all tags in small letters. -/
def assemble (fallback : Text) (templates : Dictionary Template) : Catalog :=
  { fallback := lowerAscii fallback
    templates := Dictionary.ofList <| templates.map fun (tag, t) =>
      (lowerAscii tag, { t with tag := lowerAscii tag, base := t.base.map lowerAscii }) }

/-- The checked catalog with the given templates. -/
def make? (fallback : Text) (templates : Dictionary Template) : Except CatalogError Catalog :=
  let c := assemble fallback templates
  match c.check with
  | .ok () => .ok c
  | .error e => .error e

end Catalog

end WidgetCompiler
