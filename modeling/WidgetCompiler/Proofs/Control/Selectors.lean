import WidgetCompiler.Control.Basic
import WidgetCompiler.Proofs.Style.Pruning

/-!
# The selectors of elements

The selector that a style sheet uses for an element is its tag, with its id and its classes behind
it, in which a backslash stands before every character that names are not made of.  A name is then
read back whatever its characters are (`readName_escapeName`), and it ends where the `.` or `#` of the
next one stands, for these are the characters that have lost their backslash.

So what is read off the selector of an element are its tag, its id and its classes, and nothing else
(`references_styleSelector`).  In particular the selector speaks of something that is there, and
pruning a sheet for a forest keeps the rules for its own elements.
-/

namespace WidgetCompiler

open Text Markup Style

variable {e : Element} {name rest : Text} {classes : List Text}

/-! ## Escaped names -/

theorem readName_escapeName (name : Text) (hrest : EndsName rest) :
    readName (escapeName name ++ rest) = (name, rest) := by
  induction name with
  | nil => exact readName_of_endsName hrest
  | cons c name ih =>
    rw [escapeName, List.flatMap_cons, List.append_assoc]
    split
    · next hpart => exact readName_part hpart ih
    · exact readName_escaped c ih

/-! ## Ids and classes -/

/-- The text that selects a class. -/
def classText (name : Text) : Text := '.' :: escapeName name

/-- The text that selects an id. -/
def idText (name : Text) : Text := '#' :: escapeName name

theorem styleSelector_eq (e : Element) :
    styleSelector e = e.tag ++ (((e.id.map idText).getD []) ++ e.classes.flatMap classText) := by
  unfold styleSelector
  rw [List.append_assoc]
  cases e.id <;> rfl

theorem endsName_nil : EndsName [] := by simp [EndsName]

theorem endsName_classes (classes : List Text) : EndsName (classes.flatMap classText) := by
  cases classes with
  | nil => exact endsName_nil
  | cons name classes => exact endsName_cons (by decide) (by decide) _

theorem endsName_id (id : Option Text) (hrest : EndsName rest) :
    EndsName ((id.map idText).getD [] ++ rest) := by
  cases id with
  | none => exact hrest
  | some name => exact endsName_cons (by decide) (by decide) _

theorem referencesFrom_classes (h : ∀ name ∈ classes, name ≠ []) :
    referencesFrom false (classes.flatMap classText) = classes.map .class := by
  induction classes with
  | nil => rw [List.flatMap_nil, referencesFrom, List.map_nil]
  | cons name classes ih =>
    obtain ⟨hname, hclasses⟩ := List.forall_mem_cons.1 h
    have hread := readName_escapeName name (endsName_classes classes)
    rw [List.flatMap_cons, classText, List.cons_append, referencesFrom_class false hname hread,
      ih hclasses, List.map_cons]

theorem referencesFrom_idText {id : Option Text} (h : ∀ name ∈ id, name ≠ [])
    (hrest : EndsName rest) :
    referencesFrom false ((id.map idText).getD [] ++ rest)
      = (id.map .id).toList ++ referencesFrom false rest := by
  cases id with
  | none => rfl
  | some name =>
    exact referencesFrom_id false (h name rfl) (readName_escapeName name hrest)

/-! ## Elements -/

/-- A tag that begins with a letter and is made of what names are made of, an id that is not empty,
and classes that are not empty either. -/
structure Markup.Element.Selectable (e : Element) : Prop where
  begins : ∃ c ∈ e.tag.head?, isLetter c = true
  parts : ∀ c ∈ e.tag, isNamePart c = true
  id : ∀ name ∈ e.id, name ≠ []
  classes : ∀ name ∈ e.classes, name ≠ []

theorem readName_tag (h : ∀ c ∈ name, isNamePart c = true) (hrest : EndsName rest) :
    readName (name ++ rest) = (name, rest) := by
  induction name with
  | nil => exact readName_of_endsName hrest
  | cons c name ih =>
    obtain ⟨hc, hname⟩ := List.forall_mem_cons.1 h
    exact readName_part hc (ih hname)

/-- Off the selector of an element its tag is read, then its id, if it has one, and then its classes
in their order, whatever characters the id and the classes are made of.  So the selector is relevant
to every forest that the element belongs to, if its tag is in small letters. -/
theorem references_styleSelector (h : e.Selectable) :
    references (styleSelector e)
        = .type (lowerAscii e.tag) :: ((e.id.map .id).toList ++ e.classes.map .class)
      ∧ ∀ forest : List Element, e ∈ Element.preorderAll forest → lowerAscii e.tag = e.tag →
        isRelevant (.ofForest forest) (styleSelector e) = true := by
  have hrefs : references (styleSelector e)
      = .type (lowerAscii e.tag) :: ((e.id.map .id).toList ++ e.classes.map .class) := by
    obtain ⟨c, hhead, hletter⟩ := h.begins
    obtain ⟨name, htag⟩ : ∃ name, e.tag = c :: name := List.head?_eq_some_iff.1 hhead
    have hparts : ∀ d ∈ name, isNamePart d = true := fun d hd =>
      h.parts d (htag ▸ List.mem_cons_of_mem c hd)
    have hclasses := endsName_classes e.classes
    rw [references, styleSelector_eq, htag, List.cons_append,
      referencesFrom_type hletter (readName_tag hparts (endsName_id e.id hclasses)),
      referencesFrom_idText h.id hclasses, referencesFrom_classes h.classes]
  refine ⟨hrefs, fun forest hmem hlower => ?_⟩
  have htype : (SelectorRef.type (lowerAscii e.tag)).isIn (.ofForest forest) = true :=
    isIn_ofForest.2 ⟨e, hmem, hlower⟩
  rw [isRelevant, hrefs, List.any_cons, htype, Bool.true_or, Bool.or_true]

/-- A card in a box, with an id and classes that are full of marks. -/
theorem references_styleSelector_marks :
    let e := Element.make "x-card" ["md:w-1/2", "a.b#c[d] \\"] (some "7 >~(,)") none [] []
    let forest := [Element.make "div" [] none none [] [e]]
    e.Selectable ∧ e ∈ Element.preorderAll forest ∧ lowerAscii e.tag = e.tag
      ∧ references (styleSelector e)
        = [.type "x-card", .id "7 >~(,)", .class "md:w-1/2", .class "a.b#c[d] \\"]
      ∧ isRelevant (.ofForest forest) (styleSelector e) = true := by
  intro e forest
  have hselectable : e.Selectable :=
    ⟨⟨'x', by decide⟩, by decide, by decide, by decide⟩
  have hmem : e ∈ Element.preorderAll forest := by
    simp [forest, Element.preorderAll, Element.preorder, Element.make, e]
  have hlower : lowerAscii e.tag = e.tag := by decide
  obtain ⟨hrefs, hrelevant⟩ := references_styleSelector hselectable
  exact ⟨hselectable, hmem, hlower, hrefs.trans (by decide), hrelevant forest hmem hlower⟩

end WidgetCompiler
