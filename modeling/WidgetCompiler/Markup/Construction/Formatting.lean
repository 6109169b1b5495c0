import WidgetCompiler.Markup.Construction.State

/-!
# Formatting elements

A formatting element such as `b` is opened again where a block closes it early, and an end tag that
crosses a block splits its element in two.  `reopen` does the first, `closeFormatting` the second:
it is the adoption agency of the HTML Standard, in which the block adopts a copy of the formatting
element.
-/

namespace WidgetCompiler.Markup

open Text

namespace Formatting

/-- Whether the entry is the element at a place. -/
def isEntry (id : Nat) : Formatting → Bool
  | .marker => false
  | .element id' _ => id' == id

/-- Whether the entry is a marker. -/
def isMarker : Formatting → Bool
  | .marker => true
  | .element _ _ => false

end Formatting

namespace Construction

/-! ## The list of formatting elements -/

/-- Put a marker behind which formatting elements are not opened again. -/
def mark (b : Construction) : Construction := { b with formatting := .marker :: b.formatting }

/-- Forget the formatting elements up to and with the last marker. -/
def clearToMarker (b : Construction) : Construction :=
  { b with formatting := (b.formatting.dropWhile (! ·.isMarker)).drop 1 }

/-- The formatting elements behind the last marker. -/
def sinceMarker (b : Construction) : List Formatting := b.formatting.takeWhile (! ·.isMarker)

/-- Whether an element is among the formatting elements. -/
def isFormatting (b : Construction) (id : Nat) : Bool := b.formatting.any (·.isEntry id)

/-- Take an element out of the formatting elements. -/
def forget (b : Construction) (id : Nat) : Construction :=
  { b with formatting := b.formatting.filter (! ·.isEntry id) }

/-- Whether two tags have one name and the same attributes in any order. -/
def sameTag (s t : Tag) : Bool :=
  s.name == t.name && s.attributes.length == t.attributes.length
    && s.attributes.all t.attributes.contains

/-- Forget the first of the formatting elements like `tag` if there are three of them already. -/
def keepThree (b : Construction) (tag : Tag) : Construction :=
  let alike := b.sinceMarker.filterMap fun
    | .marker => none
    | .element id t => if sameTag tag t then some id else none
  match alike.drop 2 with
  | [] => b
  | id :: ids => b.forget (ids.getLastD id)

/-- Open a formatting element. -/
def insertFormatting (b : Construction) (tag : Tag) : Construction :=
  let b := (b.keepThree tag).insertTag tag
  { b with formatting := .element (b.current?.getD 0) tag :: b.formatting }

/-- Whether an entry needs no opening: a marker, or an element that is open. -/
def isSettled (b : Construction) : Formatting → Bool
  | .marker => true
  | .element id _ => b.openElements.contains id

/-- Open again the formatting elements that were closed early, the first of them first. -/
def reopen (b : Construction) : Construction :=
  let closed := b.formatting.takeWhile fun e => !b.isSettled e
  let kept := b.formatting.drop closed.length
  closed.reverse.foldl (fun b e =>
    match e with
    | .marker => b
    | .element _ tag =>
      let b := b.insertTag tag
      { b with formatting := .element (b.current?.getD 0) tag :: b.formatting })
    { b with formatting := kept }

/-! ## End tags in general -/

/-- The effect of an end tag on elements without rules of their own: the nearest open element of
the name is closed with all that is in it, unless a special element is met first. -/
def closeAny (b : Construction) (name : Text) : Construction :=
  let above := b.openElements.takeWhile fun id =>
    !b.isHtml id name && !isOneOf special (b.nameOf id)
  match b.openElements.drop above.length with
  | id :: below => if b.isHtml id name then { b with openElements := below } else b
  | [] => b

/-! ## The adoption agency -/

/-- Where the copy of a formatting element goes among the formatting elements: in the place of the
element, or behind another. -/
inductive Bookmark
  | inPlace
  | behind (id : Nat)

/-- The loop over the elements between the block and the formatting element. -/
structure Adoption where
  state : Construction
  /-- The elements that stay open, in the order of the list. -/
  kept : List Nat
  bookmark : Bookmark
  last : Nat

/-- One element between the block and the formatting element, the `count`th: a formatting element
is copied, and the copy adopts what came before; all others are closed. -/
def adoptBetween (block : Nat) (a : Adoption) (count node : Nat) : Adoption :=
  let b := if count > 3 then a.state.forget node else a.state
  match b.formatting.find? (·.isEntry node) with
  | some (.element _ tag) =>
    let (nodes, copy) := b.nodes.add ⟨.html, tag.name⟩ tag.attributes
    { state := { b with
        nodes := (nodes.detach a.last).put (.lastIn copy) (.child a.last)
        formatting := b.formatting.map fun e =>
          if e.isEntry node then .element copy tag else e }
      kept := a.kept ++ [copy]
      bookmark := if a.last = block then .behind copy else a.bookmark
      last := copy }
  | _ => { a with state := b }

/-- The formatting elements with the copy of one put at the bookmark in its place. -/
def moveEntry (element : Nat) (copy : Formatting) (bookmark : Bookmark) (es : List Formatting) :
    List Formatting :=
  match bookmark with
  | .inPlace => es.map fun e => if e.isEntry element then copy else e
  | .behind id => (es.flatMap fun e => if e.isEntry id then [copy, e] else [e]).filter
      (! ·.isEntry element)

/-- One round of the adoption agency for the formatting element at a place: nothing if the end tag
is done with. -/
def adoptOnce (b : Construction) (element : Nat) (tag : Tag) : Construction × Bool :=
  let newer := b.openElements.takeWhile (· ≠ element)
  match b.openElements.drop newer.length with
  | [] => (b.forget element, false)
  | _ :: older =>
    if !b.inScopeWhere endsScope (· == element) then (b, false)
    else
      let isSpecial := fun id => isOneOf special (b.nameOf id)
      let between := (newer.reverse.takeWhile (! isSpecial ·)).reverse
      match (newer.reverse.dropWhile (! isSpecial ·)) with
      | [] => ({ b with openElements := older }.forget element, false)
      | block :: aboveReversed =>
        let start : Adoption := ⟨b, [], .inPlace, block⟩
        let a := (between.zipIdx 1).foldl (fun a (node, count) =>
          adoptBetween block a count node) start
        let b := a.state
        let b := { b with nodes := b.nodes.detach a.last }
        let b := { b with
          nodes := b.nodes.put (b.placeIn (older.headD 0)) (.child a.last) }
        let (nodes, copy) := b.nodes.add ⟨.html, tag.name⟩ tag.attributes
        let nodes := (nodes.moveContent block copy).put (.lastIn block) (.child copy)
        ({ b with
            nodes := nodes
            formatting := moveEntry element (.element copy tag) a.bookmark b.formatting
            openElements := aboveReversed.reverse ++ copy :: block :: a.kept ++ older }, true)

/-- The effect of the end tag of a formatting element, in at most `rounds` rounds. -/
def adopt (name : Text) : Nat → Construction → Construction
  | 0, b => b
  | rounds + 1, b =>
    let entry := b.sinceMarker.find? fun
      | .marker => false
      | .element _ tag => tag.name == name
    match entry with
    | some (.element id tag) =>
      let (b, again) := b.adoptOnce id tag
      if again then adopt name rounds b else b
    | _ => b.closeAny name

/-- The effect of the end tag of a formatting element. -/
def closeFormatting (b : Construction) (name : Text) : Construction :=
  if b.currentIs name && !b.current?.any b.isFormatting then b.pop else adopt name 8 b

end Construction

end WidgetCompiler.Markup
