import WidgetCompiler.Markup.Construction.Formatting

/-!
# Elements of other vocabularies

Drawings and formulas stand inside HTML with elements of their own.  Tags are read in small letters,
so the mixed case of some names is restored here (`properName`, `properAttribute`), and
the attributes that come with a prefix keep only what follows it.

At an integration point, such as the description of a drawing, content is HTML again.
-/

namespace WidgetCompiler.Markup

open Text

namespace Construction

/-! ## Names in mixed case -/

/-- The elements of drawings whose names are written in mixed case. -/
def mixedElements : List String := [
  "altGlyph", "altGlyphDef", "altGlyphItem", "animateColor", "animateMotion", "animateTransform",
  "clipPath", "feBlend", "feColorMatrix", "feComponentTransfer", "feComposite", "feConvolveMatrix",
  "feDiffuseLighting", "feDisplacementMap", "feDistantLight", "feDropShadow", "feFlood", "feFuncA",
  "feFuncB", "feFuncG", "feFuncR", "feGaussianBlur", "feImage", "feMerge", "feMergeNode",
  "feMorphology", "feOffset", "fePointLight", "feSpecularLighting", "feSpotLight", "feTile",
  "feTurbulence", "foreignObject", "glyphRef", "linearGradient", "radialGradient", "textPath"]

/-- The attributes of drawings whose names are written in mixed case. -/
def mixedAttributes : List String := [
  "attributeName", "attributeType", "baseFrequency", "baseProfile", "calcMode", "clipPathUnits",
  "diffuseConstant", "edgeMode", "filterUnits", "glyphRef", "gradientTransform", "gradientUnits",
  "kernelMatrix", "kernelUnitLength", "keyPoints", "keySplines", "keyTimes", "lengthAdjust",
  "limitingConeAngle", "markerHeight", "markerUnits", "markerWidth", "maskContentUnits",
  "maskUnits", "numOctaves", "pathLength", "patternContentUnits", "patternTransform",
  "patternUnits", "pointsAtX", "pointsAtY", "pointsAtZ", "preserveAlpha", "preserveAspectRatio",
  "primitiveUnits", "refX", "refY", "repeatCount", "repeatDur", "requiredExtensions",
  "requiredFeatures", "specularConstant", "specularExponent", "spreadMethod", "startOffset",
  "stdDeviation", "stitchTiles", "surfaceScale", "systemLanguage", "tableValues", "targetX",
  "targetY", "textLength", "viewBox", "viewTarget", "xChannelSelector", "yChannelSelector",
  "zoomAndPan"]

/-- The attributes that are known by what follows their prefix. -/
def prefixedAttributes : List String := [
  "xlink:actuate", "xlink:arcrole", "xlink:href", "xlink:role", "xlink:show", "xlink:title",
  "xlink:type", "xml:lang", "xml:space", "xmlns:xlink"]

/-- The entry of a list that agrees with a name but for case, or the name itself. -/
def restoreCase (entries : List String) (name : Text) : Text :=
  match entries.find? fun e => lowerAscii e.toList == name with
  | some e => e.toList
  | none => name

/-- The name of an element in its own vocabulary. -/
def properName (vocabulary : Vocabulary) (name : Text) : Text :=
  match vocabulary with
  | .svg => restoreCase mixedElements name
  | _ => name

/-- The name of an attribute in the vocabulary of its element. -/
def properAttribute (vocabulary : Vocabulary) (name : Text) : Text :=
  if prefixedAttributes.contains (String.ofList name) then
    match cutAt? (· == ':') name with
    | some (_, rest) => rest
    | none => name
  else match vocabulary with
    | .svg => restoreCase mixedAttributes name
    | .mathml => restoreCase ["definitionURL"] name
    | .html => name

/-- The attributes under the names of the vocabulary.  Of two that come to have one name the one
with a prefix stays. -/
def properAttributes (vocabulary : Vocabulary) (attributes : List (Text × Text)) :
    List (Text × Text) :=
  let hasPrefix := fun (a : Text × Text) => prefixedAttributes.contains (String.ofList a.1)
  let named (as : List (Text × Text)) : List (Text × Text) :=
    as.map fun (n, v) => (properAttribute vocabulary n, v)
  let front := named (attributes.filter hasPrefix)
  front ++ (named (attributes.filter (! hasPrefix ·))).filter fun a => !front.any (·.1 == a.1)

/-- Put an element of another vocabulary at its place, and open it unless a slash closes it. -/
def insertOf (b : Construction) (vocabulary : Vocabulary) (name : Text) (tag : Tag) :
    Construction :=
  let attributes := properAttributes vocabulary tag.attributes
  if tag.selfClosing then (b.placeElement ⟨vocabulary, name⟩ attributes).1
  else b.insertForeign ⟨vocabulary, name⟩ attributes

/-! ## Where HTML begins again -/

/-- The elements of formulas that hold text. -/
def holdsFormulaText (n : ElementName) : Bool :=
  n.vocabulary == .mathml
    && ([("mi" : Text), "mo", "mn", "ms", "mtext"] : List Text).contains n.name

/-- The elements of drawings that hold HTML. -/
def holdsHtml (n : ElementName) : Bool :=
  n.vocabulary == .svg && ([("foreignObject" : Text), "desc", "title"] : List Text).contains n.name

/-- Whether a piece belongs to the vocabulary of the element opened last, and this is not HTML. -/
def isForeign (b : Construction) (piece : Piece) : Bool :=
  match b.current? with
  | none => false
  | some id =>
    let n := b.nameOf id
    if n.vocabulary = .html then false
    else match piece with
      | .char _ => !(holdsFormulaText n || holdsHtml n)
      | .startTag tag =>
        !(holdsHtml n
          || (holdsFormulaText n && tag.name != "mglyph".toList && tag.name != "malignmark".toList)
          || (n == ⟨.mathml, "annotation-xml"⟩ && tag.name == "svg".toList))
      | _ => true

end Construction

end WidgetCompiler.Markup
