import WidgetCompiler.Markup.Construction.Rules
import WidgetCompiler.Markup.Element

/-!
# Reading a fragment

`parseFragment` reads markup as a whole document, the way a browser does, and gives the elements
directly in the body.  Every text can be read: what is malformed is mended by the rules of tree
construction.
-/

namespace WidgetCompiler.Markup

open Text

namespace Construction

/-- The characters directly in an element. -/
def directText (node : Node) : Text :=
  node.content.reverse.filterMap fun
    | .char c => some c
    | .child _ => none

/-- The elements directly in an element.  What a template holds is not part of the document. -/
def childrenOf (node : Node) : List Nat :=
  if node.name = ⟨.html, "template"⟩ then []
  else node.content.reverse.filterMap fun
    | .char _ => none
    | .child id => some id

/-- The element at a place, down to the given depth. -/
def elementAt (nodes : Nodes) : Nat → Nat → Option Element
  | 0, _ => none
  | depth + 1, id =>
    match nodes[id]? with
    | none => none
    | some node =>
      let text := if node.name = ⟨.html, "template"⟩ then [] else directText node
      some <| Element.make node.name.name
        (((node.attributes.lookup "class".toList).map words).getD [])
        ((node.attributes.lookup "id".toList).map trim)
        (some text)
        (node.attributes.filter fun a => a.1 != "class".toList && a.1 != "id".toList)
        ((childrenOf node).filterMap (elementAt nodes depth))

/-- The elements directly in the body. -/
def bodyElements (b : Construction) : List Element :=
  match b.nodes[0]? with
  | none => []
  | some root =>
    match (childrenOf root).find? (b.isHtml · "body") with
    | none => []
    | some body =>
      match b.nodes[body]? with
      | none => []
      | some node => (childrenOf node).filterMap (elementAt b.nodes b.nodes.size)

end Construction

/-- The elements that markup puts directly into a body. -/
def parseFragment (markup : Text) : List Element :=
  if allBlank markup then []
  else (Construction.readText {} (documentText markup)).bodyElements

end WidgetCompiler.Markup
