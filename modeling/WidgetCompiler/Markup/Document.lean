import WidgetCompiler.Markup.Token

/-!
# Documents under construction

A document grows while it is read, and elements move in it, so its nodes stand in one array and
refer to each other by their place in it.  A `Node` holds its content, characters and child
elements in one list with the last first: text next to text needs no joining, and appending is a
`cons`.

The operations add a node (`Nodes.add`), put content at a `Position`, and detach a child.
-/

namespace WidgetCompiler.Markup

open Text

/-- The vocabulary an element belongs to. -/
inductive Vocabulary
  | html
  | svg
  | mathml
deriving DecidableEq, Repr

/-- The name of an element. -/
structure ElementName where
  vocabulary : Vocabulary
  name : Text
deriving DecidableEq, Repr

/-- What an element contains: characters and elements. -/
inductive Content
  | char (c : Char)
  | child (id : Nat)
deriving DecidableEq, Repr

/-- An element of the document with its content, the last first. -/
structure Node where
  name : ElementName
  attributes : List (Text × Text)
  content : List Content
deriving Repr

/-- The elements of a document by their place. -/
abbrev Nodes := Array Node

/-- Where content is put: behind all content of an element, or before one of its children. -/
inductive Position
  | lastIn (id : Nat)
  | before (parent child : Nat)

namespace Nodes

/-- The nodes with one more element, which stands nowhere yet, and its place. -/
def add (nodes : Nodes) (name : ElementName) (attributes : List (Text × Text)) : Nodes × Nat :=
  (nodes.push ⟨name, attributes, []⟩, nodes.size)

/-- The name of the element at a place. -/
def nameOf (nodes : Nodes) (id : Nat) : ElementName :=
  match nodes[id]? with
  | some node => node.name
  | none => ⟨.html, []⟩

/-- The nodes with `f` applied to the content of one element. -/
def updateContent (nodes : Nodes) (id : Nat) (f : List Content → List Content) : Nodes :=
  nodes.modify id fun node => { node with content := f node.content }

/-- The element that a child stands in. -/
def parent? (nodes : Nodes) (child : Nat) : Option Nat :=
  nodes.findIdx? fun node => node.content.contains (.child child)

/-- The content with one piece more before a child; the list has its last piece first. -/
def insertBefore (child : Nat) (piece : Content) : List Content → List Content
  | [] => [piece]
  | c :: cs => if c = .child child then c :: piece :: cs else c :: insertBefore child piece cs

/-- The nodes with a piece of content put at a position. -/
def put (nodes : Nodes) (position : Position) (piece : Content) : Nodes :=
  match position with
  | .lastIn id => nodes.updateContent id (piece :: ·)
  | .before parent child => nodes.updateContent parent (insertBefore child piece)

/-- The nodes with a child taken out of the element it stands in. -/
def detach (nodes : Nodes) (child : Nat) : Nodes :=
  match nodes.parent? child with
  | some parent => nodes.updateContent parent (·.filter (· ≠ .child child))
  | none => nodes

/-- The nodes with all content of one element moved to the end of another. -/
def moveContent (nodes : Nodes) (source target : Nat) : Nodes :=
  match nodes[source]? with
  | some node =>
    (nodes.updateContent source fun _ => []).updateContent target (node.content ++ ·)
  | none => nodes

/-- The nodes with attributes added to an element where it lacks them. -/
def addMissingAttributes (nodes : Nodes) (id : Nat) (attributes : List (Text × Text)) : Nodes :=
  nodes.modify id fun node =>
    { node with
      attributes := node.attributes
        ++ attributes.filter fun a => !node.attributes.any (·.1 == a.1) }

end Nodes

end WidgetCompiler.Markup
