import WidgetCompiler.Text.Basic
import WidgetCompiler.Text.Lowercase

/-!
# Elements of a fragment

An `Element` is what the rest of the library sees of the markup: the tag, the classes, the id, the
element's own text, its other attributes and its children.  Every element carries the selector made
of its tag, id and classes.

`preorder` lists a forest with every element before its children.  The place of an element in the
list is its number, by which its controls are named.  `SelectorSet.ofForest` collects what style
rules can refer to.

## Main statements

`length_preorder` says that the list is as long as `countAll` counts, and `selector_make` that an
element made by `make` carries the selector that its parts have.
-/

namespace WidgetCompiler.Markup

open Text

/-- An element with its subtree. -/
structure Element where
  /-- The name, in small letters. -/
  tag : Text
  /-- The classes in order, each once. -/
  classes : List Text
  id : Option Text
  /-- The text directly in the element, without the blanks around it; never empty. -/
  text : Option Text
  /-- All attributes but the class and the id. -/
  attributes : List (Text × Text)
  children : List Element
  /-- The tag, then `#` and the id, then `.` and each class. -/
  selector : Text
deriving Inhabited

/-- A tag, an id and classes as a selector. -/
def selectorOf (tag : Text) (id : Option Text) (classes : List Text) : Text :=
  tag ++ (match id with
    | some id => '#' :: id
    | none => []) ++ classes.flatMap ('.' :: ·)

namespace Element

/-- The element with the given parts, brought into shape: the tag in small letters, the classes
without repetition, no blank id, the text without the blanks around it. -/
def make (tag : Text) (classes : List Text) (id text : Option Text)
    (attributes : List (Text × Text)) (children : List Element) : Element :=
  let tag := lowerAscii tag
  let classes := distinct (classes.filter (! ·.isEmpty))
  let id := id.filter (! allBlank ·)
  let text := (text.map trim).filter (! ·.isEmpty)
  ⟨tag, classes, id, text, attributes, children, selectorOf tag id classes⟩

/-- The value of an attribute. -/
def attribute? (e : Element) (name : Text) : Option Text := e.attributes.lookup name

/-- The selector of the element's tag, id and classes. -/
def derivedSelector (e : Element) : Text := selectorOf e.tag e.id e.classes

/-- Whether there are elements in the element. -/
def hasChildren (e : Element) : Bool := !e.children.isEmpty

theorem selector_make (tag : Text) (classes : List Text) (id text : Option Text)
    (attributes : List (Text × Text)) (children : List Element) :
    (make tag classes id text attributes children).selector
      = (make tag classes id text attributes children).derivedSelector := rfl

/-! ## Forests -/

mutual

/-- The element and all elements in it, every element before its children. -/
def preorder : Element → List Element
  | ⟨tag, classes, id, text, attributes, children, selector⟩ =>
    ⟨tag, classes, id, text, attributes, children, selector⟩ :: preorderAll children

/-- All elements of a forest, every element before its children. -/
def preorderAll : List Element → List Element
  | [] => []
  | e :: es => preorder e ++ preorderAll es

end

mutual

/-- The number of elements in the element, itself included. -/
def count : Element → Nat
  | ⟨_, _, _, _, _, children, _⟩ => 1 + countAll children

/-- The number of elements in a forest. -/
def countAll : List Element → Nat
  | [] => 0
  | e :: es => count e + countAll es

end

mutual

theorem length_preorder : (e : Element) → (preorder e).length = count e
  | ⟨_, _, _, _, _, children, _⟩ => by
    simp [preorder, count, length_preorderAll children, Nat.add_comm]

theorem length_preorderAll : (es : List Element) → (preorderAll es).length = countAll es
  | [] => rfl
  | e :: es => by simp [preorderAll, countAll, length_preorder e, length_preorderAll es]

end

theorem mem_preorder_self (e : Element) : e ∈ preorder e := by
  cases e
  exact List.mem_cons_self

theorem preorderAll_append (es fs : List Element) :
    preorderAll (es ++ fs) = preorderAll es ++ preorderAll fs := by
  induction es with
  | nil => rfl
  | cons e es ih => rw [List.cons_append, preorderAll, ih, preorderAll, List.append_assoc]

theorem mem_preorderAll_of_split {es before behind : List Element} {e : Element}
    (h : es = before ++ e :: behind) : e ∈ preorderAll es := by
  rw [h, preorderAll_append, preorderAll]
  exact List.mem_append_right _ (List.mem_append_left _ (mem_preorder_self e))

theorem mem_preorderAll_of_mem {es : List Element} {e : Element} (h : e ∈ es) :
    e ∈ preorderAll es := by
  obtain ⟨before, behind, hsplit⟩ := List.append_of_mem h
  exact mem_preorderAll_of_split hsplit

mutual

theorem preorder_children_subset : (e : Element) → ∀ {d : Element}, d ∈ preorder e →
    preorderAll d.children ⊆ preorder e
  | ⟨tag, classes, id, text, attributes, children, selector⟩, d, hd => by
    rcases List.mem_cons.1 hd with rfl | hd
    · exact List.subset_cons_self _ _
    · exact List.Subset.trans (preorderAll_children_subset children hd) (List.subset_cons_self _ _)

theorem preorderAll_children_subset : (es : List Element) → ∀ {d : Element},
    d ∈ preorderAll es → preorderAll d.children ⊆ preorderAll es
  | [], d, hd => by simp [preorderAll] at hd
  | e :: es, d, hd => by
    rcases List.mem_append.1 hd with hd | hd
    · exact List.Subset.trans (preorder_children_subset e hd) (List.subset_append_left _ _)
    · exact List.Subset.trans (preorderAll_children_subset es hd) (List.subset_append_right _ _)

end

end Element

/-! ## What style rules can refer to -/

/-- Tags, classes and ids. -/
structure SelectorSet where
  tags : List Text := []
  classes : List Text := []
  ids : List Text := []

namespace SelectorSet

/-- Whether there is nothing to refer to. -/
def isEmpty (s : SelectorSet) : Bool := s.tags.isEmpty && s.classes.isEmpty && s.ids.isEmpty

/-- The tags, classes and ids of a forest, each in order and once. -/
def ofForest (es : List Element) : SelectorSet :=
  let all := Element.preorderAll es
  { tags := sortDistinct (all.map (·.tag))
    classes := sortDistinct (all.flatMap (·.classes))
    ids := sortDistinct (all.filterMap (·.id)) }

end SelectorSet

end WidgetCompiler.Markup
