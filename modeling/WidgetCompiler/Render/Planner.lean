import WidgetCompiler.Bound.Basic
import WidgetCompiler.Markup.Escape
import WidgetCompiler.Markup.StartTag
import WidgetCompiler.Render.Plan

/-!
# Planning

`planRender` makes the plan of a fragment out of its markup and its elements.  Each element takes
the next start tag of its name.  Where the element's kind has something to set, and the markup there
is as simple as the element says, the markup is exchanged for parts that print values; everything
else stays as it is written.
-/

namespace WidgetCompiler.Render

open Text Markup

/-- What takes the place of the markup of an element, which reaches to `stop`. -/
structure Substitution where
  stop : Nat
  bindings : List Binding := []
  parts : List Part

/-- Where the text of an element ends, and where its end tag does: for an element without children
whose text stands in the markup directly behind its tag. -/
def textSpan? (markup : Text) (tag : StartTag) (e : Element) : Option (Nat × Nat) :=
  if tag.selfClosing || e.hasChildren then none
  else match e.text, cutAt? (· == '<') (markup.drop tag.stop) with
    | some expected, some (inner, _) =>
      let innerStop := tag.stop + inner.length
      match endTagEnd? markup innerStop tag.name with
      | some stop => if decodeCommon (trim inner) = expected then some (innerStop, stop) else none
      | none => none
    | _, _ => none

/-- The name of a variable for an element. -/
def localName (stem : Text) (index : Nat) : Text := stem ++ '_' :: decimal index

/-- A start tag of a link to the address that a name is bound to. -/
def linkOpen (var : Text) : List Part :=
  [.markup "<a href=\"", .echo (.url var) .url, .markup "\"", .linkAttributes var, .markup ">"]

/-- Parts within a link, if there is one. -/
def wrapInLink (var : Option Text) (inner : List Part) : List Part :=
  match var with
  | some var => .ifSet var (linkOpen var) :: inner ++ [.ifSet var [.markup "</a>"]]
  | none => inner

/-- A value for an attribute. -/
structure Replacement where
  name : Text
  value : Value
  escape : Escape

/-- The attribute with its value. -/
def Replacement.parts (r : Replacement) : List Part :=
  [.markup (' ' :: r.name ++ "=\""), .echo r.value r.escape, .markup "\""]

/-- A start tag without its end, with values for some attributes: those that it has are replaced,
the others follow. -/
def startTagWith (tag : StartTag) (replacements : List Replacement) : List Part :=
  .markup ('<' :: tag.rawName)
    :: tag.attributes.flatMap (fun a =>
      match replacements.find? (·.name == a.name) with
      | some r => r.parts
      | none => [.markup (' ' :: a.raw)])
    ++ (replacements.filter (!tag.hasAttribute ·.name)).flatMap (·.parts)

/-- The markup of an element with a value in place of its text. -/
def textReplaced (markup : Text) (tag : StartTag) (innerStop stop : Nat) (textId : Text) :
    List Part :=
  [.markup (slice markup tag.start tag.stop), .echo (.setting textId) .html,
    .markup (slice markup innerStop stop)]

/-! ## The kinds of elements -/

/-- A text container: its text. -/
def textContainerSubstitution? (markup : Text) (tag : StartTag) (b : BoundElement) :
    Option Substitution :=
  match b.control? "text", textSpan? markup tag b.element with
  | some textId, some (innerStop, stop) =>
    some { stop := stop, parts := textReplaced markup tag innerStop stop textId }
  | _, _ => none

/-- A heading: its text, its tag, and a link around it. -/
def headingSubstitution? (markup : Text) (tag : StartTag) (b : BoundElement) :
    Option Substitution :=
  match b.control? "heading_text", textSpan? markup tag b.element with
  | some textId, some (_, stop) =>
    let textVar := localName "heading_text" b.index
    let tagVar := localName "html_tag" b.index
    let linkVar := localName "link" b.index
    let tagPart : Part := match b.control? "html_tag" with
      | some _ => .echo (.var tagVar) .attr
      | none => .markup tag.rawName
    some {
      stop := stop
      bindings := ⟨textVar, .setting textId⟩
        :: ((b.control? "html_tag").map fun id =>
            (⟨tagVar, .settingOr id b.element.tag⟩ : Binding)).toList
        ++ ((b.control? "link").map fun id => (⟨linkVar, .linkOrNull id⟩ : Binding)).toList
      parts := wrapInLink ((b.control? "link").map fun _ => linkVar)
        [.markup "<", tagPart, .markup (tag.attributesText ++ ">"), .echo (.var textVar) .html,
          .markup "</", tagPart, .markup ">"] }
  | _, _ => none

/-- An anchor: its text, its address, and the attributes that the link asks for, unless it has such
attributes already. -/
def anchorSubstitution? (markup : Text) (tag : StartTag) (b : BoundElement) :
    Option Substitution :=
  match b.control? "link_text", textSpan? markup tag b.element with
  | some textId, some (innerStop, stop) =>
    let rest : List Part :=
      [.markup ">", .echo (.setting textId) .html, .markup (slice markup innerStop stop)]
    match b.control? "link_url" with
    | some id =>
      let linkVar := localName "link_url" b.index
      let fallback := (b.element.attribute? "href").getD "#"
      let extra : List Part :=
        if tag.hasAttribute "target" || tag.hasAttribute "rel" then []
        else [.linkAttributes linkVar]
      some {
        stop := stop
        bindings := [⟨linkVar, .urlOr id fallback⟩]
        parts := startTagWith tag [⟨"href", .url linkVar, .url⟩] ++ extra ++ rest }
    | none => some { stop := stop, parts := startTagWith tag [] ++ rest }
  | _, _ => none

/-- A button: its text, and a link around it. -/
def buttonSubstitution? (markup : Text) (tag : StartTag) (b : BoundElement) :
    Option Substitution :=
  match b.control? "button_text", textSpan? markup tag b.element with
  | some textId, some (innerStop, stop) =>
    let linkVar := localName "button_link" b.index
    let link := b.control? "button_link"
    some {
      stop := stop
      bindings := (link.map fun id => (⟨linkVar, .linkOrNull id⟩ : Binding)).toList
      parts := wrapInLink (link.map fun _ => linkVar)
        (textReplaced markup tag innerStop stop textId) }
  | _, _ => none

/-- An image: its address and the text in its place. -/
def imageSubstitution? (tag : StartTag) (b : BoundElement) : Option Substitution :=
  match b.control? "image" with
  | some imageId =>
    let imageVar := localName "image" b.index
    let altVar := localName "alt_text" b.index
    let alt := b.control? "alt_text"
    some {
      stop := tag.stop
      bindings := ⟨imageVar, .urlOr imageId ((b.element.attribute? "src").getD [])⟩
        :: (alt.map fun id =>
          (⟨altVar, .settingOr id ((b.element.attribute? "alt").getD [])⟩ : Binding)).toList
      parts := startTagWith tag
          (⟨"src", .url imageVar, .url⟩
            :: (alt.map fun _ => (⟨"alt", .var altVar, .attr⟩ : Replacement)).toList)
        ++ [.markup tag.tail] }
  | none => none

/-- An input field that has a placeholder: the placeholder. -/
def inputSubstitution? (tag : StartTag) (b : BoundElement) : Option Substitution :=
  match b.control? "placeholder" with
  | some id =>
    if tag.hasAttribute "placeholder" then
      some {
        stop := tag.stop
        parts := startTagWith tag [⟨"placeholder", .setting id, .attr⟩]
          ++ [.markup tag.tail] }
    else none
  | none => none

/-- What takes the place of the markup of an element, if it can be exchanged. -/
def substitution? (markup : Text) (tag : StartTag) (b : BoundElement) : Option Substitution :=
  match b.kind with
  | .passthrough => none
  | .textContainer => textContainerSubstitution? markup tag b
  | .heading => headingSubstitution? markup tag b
  | .anchor => anchorSubstitution? markup tag b
  | .button => buttonSubstitution? markup tag b
  | .image => imageSubstitution? tag b
  | .input => inputSubstitution? tag b

/-! ## The whole fragment -/

/-- The plan of the markup from `written` on, given the start tags and the elements that are left;
its parts are not merged. -/
def planFrom (markup : Text) (written : Nat) (tags : List StartTag) : List BoundElement → Plan
  | [] => { parts := [.markup (markup.drop written)] }
  | b :: bs =>
    match tags.dropWhile (·.name != b.element.tag) with
    | [] => planFrom markup written tags bs
    | tag :: tags =>
      if tag.start < written then planFrom markup written tags bs
      else match substitution? markup tag b with
        | none => planFrom markup written tags bs
        | some s =>
          let plan := planFrom markup s.stop tags bs
          { bindings := s.bindings ++ plan.bindings
            parts := .markup (slice markup written tag.start) :: s.parts ++ plan.parts }

/-- The plan of a fragment with the given elements. -/
def planRender (markup : Text) (elements : List BoundElement) : Plan :=
  let plan := planFrom markup 0 (scanStartTags markup) elements
  { plan with parts := mergeMarkup plan.parts }

end WidgetCompiler.Render
