import WidgetCompiler.Markup.Element
import WidgetCompiler.Proofs.Markup.Escaping
import WidgetCompiler.Proofs.Markup.StartTags
import WidgetCompiler.Proofs.Text.AsciiCase
import WidgetCompiler.Proofs.Text.Run
import Mathlib.Tactic.MkIffOfInductiveProp

/-!
# The markup of a forest

`Writes forest markup` says that the markup is one of those that a forest is written as: each
element as a start tag that carries the id, the classes and the attributes in any order, the
content, and an end tag, with free text between the elements.

Where a forest is written, the start tags that are found are those of its elements, in the order of
`preorderAll` (`scan_of_writes`).  `Sites` is what the place of each element then says about the
whole markup: a list of places from left to right, so that the nesting need not be looked at again.
-/

namespace WidgetCompiler.Markup

open Text

/-! ## Names and values -/

/-- A small letter, a digit or a hyphen. -/
def isSmallNamePart (c : Char) : Bool := c.isLower || c.isDigit || c == '-'

/-- Whether a text is a name of such characters that begins with a letter. -/
def isSmallName : Text → Bool
  | c :: s => c.isLower && s.all isSmallNamePart
  | [] => false

/-- Whether a value can stand in a quoted attribute and in a link as it is. -/
def isPlainValue (v : Text) : Bool := v.all fun c => decide (c ∉ escaped) && c != '\\'

theorem isTagNamePart_of_isSmallNamePart {c : Char} (h : isSmallNamePart c = true) :
    isTagNamePart c = true := by
  rcases Bool.or_eq_true_iff.1 h with hsmall | hhyphen
  · simp [isTagNamePart, isAlphanum_of_small hsmall]
  · simp [isTagNamePart, hhyphen]

theorem isAttributeNamePart_of_isSmallNamePart {c : Char} (h : isSmallNamePart c = true) :
    isAttributeNamePart c = true := by
  have hne {d : Char} (hd : isSmallNamePart d = false) : (c == d) = false :=
    beq_eq_false_iff_ne.2 fun e => by simp [e ▸ h] at hd
  rw [isAttributeNamePart, isAsciiBlank, hne (d := ' ') (by decide), hne (d := '\t') (by decide),
    hne (d := '\n') (by decide), hne (d := '\x0c') (by decide), hne (d := '\r') (by decide),
    hne (d := '=') (by decide), hne (d := '>') (by decide), hne (d := '/') (by decide)]
  rfl

theorem toLower_of_isSmallNamePart {c : Char} (h : isSmallNamePart c = true) : c.toLower = c := by
  rcases Bool.or_eq_true_iff.1 h with hsmall | hhyphen
  · exact toLower_of_small hsmall
  · obtain rfl : c = '-' := eq_of_beq hhyphen
    rfl

section

variable {name : Text}

theorem all_of_isSmallName (h : isSmallName name = true) : ∀ c ∈ name, isSmallNamePart c = true := by
  cases name with
  | nil => simp
  | cons c s =>
    obtain ⟨hc, hs⟩ : c.isLower = true ∧ s.all isSmallNamePart = true := by
      simpa only [isSmallName, Bool.and_eq_true] using h
    intro d hd
    rcases List.mem_cons.1 hd with rfl | hd
    · simp [isSmallNamePart, hc]
    · exact List.all_eq_true.1 hs d hd

theorem lowerAscii_of_isSmallName (h : isSmallName name = true) : lowerAscii name = name := by
  refine (List.map_congr_left fun c hc => ?_).trans (List.map_id name)
  exact toLower_of_isSmallNamePart (all_of_isSmallName h c hc)

end

/-! ## Tags as they are written -/

/-- An attribute with its value in quotes. -/
def attributeText (a : Text × Text) : Text := a.1 ++ '=' :: '"' :: (a.2 ++ ['"'])

/-- Attributes, each behind a space. -/
def attributesText (as : List (Text × Text)) : Text := as.flatMap fun a => ' ' :: attributeText a

/-- The end of a start tag. -/
def tailText (closing : Bool) : Text := if closing then " />" else ">"

/-- The start tag of a name with the given attributes. -/
def startTagText (name : Text) (as : List (Text × Text)) (closing : Bool) : Text :=
  '<' :: (name ++ (attributesText as ++ tailText closing))

/-- The end tag of a name. -/
def endTagText (name : Text) : Text := '<' :: '/' :: (name ++ ['>'])

/-- What is found where `startTagText` was written. -/
def writtenTag (start : Nat) (name : Text) (as : List (Text × Text)) (closing : Bool) : StartTag :=
  { name := name
    rawName := name
    start := start
    stop := start + (startTagText name as closing).length
    attributes := as.map fun a => ⟨a.1, attributeText a⟩
    selfClosing := closing }

/-- Whether an attribute is found again: its name is one, and the quotes around its value are the
only ones. -/
def Readable (a : Text × Text) : Prop := isSmallName a.1 = true ∧ '"' ∉ a.2

theorem readAttribute?_attributeText {a : Text × Text} (ha : Readable a) (rest : Text) :
    readAttribute? (attributeText a ++ rest) = some (⟨a.1, attributeText a⟩, rest) := by
  obtain ⟨name, value⟩ := a
  obtain ⟨hname, hvalue⟩ : isSmallName name = true ∧ '"' ∉ value := ha
  have hparts : ∀ c ∈ name, isAttributeNamePart c = true :=
    fun c hc => isAttributeNamePart_of_isSmallNamePart (all_of_isSmallName hname c hc)
  have hsplit : attributeText (name, value) ++ rest
      = name ++ '=' :: '"' :: (value ++ '"' :: rest) := by
    simp [attributeText]
  have hstop : ∀ c ∈ ('=' :: '"' :: (value ++ '"' :: rest) : Text).head?,
      isAttributeNamePart c = false := by
    simp [isAttributeNamePart]
  have hquoted : cutAt? (· == '"') (value ++ '"' :: rest) = some (value, rest) :=
    cutAt?_run (fun d hd => by simpa using fun e : d = '"' => hvalue (e ▸ hd)) rfl
  have hvalue : afterValue? ('=' :: '"' :: (value ++ '"' :: rest)) = some rest := by
    have hequals : ('=' :: '"' :: (value ++ '"' :: rest)).dropWhile isAsciiBlank
        = '=' :: '"' :: (value ++ '"' :: rest) := rfl
    have hquote : ('"' :: (value ++ '"' :: rest)).dropWhile isAsciiBlank
        = '"' :: (value ++ '"' :: rest) := rfl
    simp only [afterValue?, hequals, hquote, hquoted, Option.map_some]
  rw [readAttribute?, hsplit, takeWhile_run hparts hstop, dropWhile_run hparts hstop, hvalue,
    Option.map_some, lowerAscii_of_isSmallName hname, ← hsplit, List.length_append,
    Nat.add_sub_cancel, List.take_left]

theorem readAttributes?_attributesText {as : List (Text × Text)} (has : ∀ a ∈ as, Readable a)
    (closing : Bool) (rest : Text) :
    readAttributes? (attributesText as ++ tailText closing ++ rest)
      = some (as.map fun a => ⟨a.1, attributeText a⟩, closing, rest) := by
  induction as with
  | nil =>
    cases closing with
    | false =>
      change readAttributes? ('>' :: rest) = _
      rw [readAttributes?]
      simp [isAsciiBlank]
    | true =>
      change readAttributes? (' ' :: '/' :: '>' :: rest) = _
      rw [readAttributes?, if_pos (by rfl), readAttributes?]
      simp [isAsciiBlank]
  | cons a as ih =>
    have ha := has a (List.mem_cons_self ..)
    have hbehind := readAttribute?_attributeText ha (attributesText as ++ tailText closing ++ rest)
    obtain ⟨c, s, hcs, hc⟩ : ∃ c s, attributeText a = c :: s ∧ c.isLower = true := by
      obtain ⟨name, value⟩ := a
      cases name with
      | nil => simp [Readable, isSmallName] at ha
      | cons c s => exact ⟨c, _, rfl, by have := ha.1; simp_all [isSmallName]⟩
    have hne {d : Char} (hd : d.isLower = false) : c ≠ d := fun e => by simp [e ▸ hc] at hd
    have hblank : isAsciiBlank c = false := by
      simp [isAsciiBlank, hne]
    have hsplit : attributesText (a :: as) ++ tailText closing ++ rest
        = ' ' :: (attributeText a ++ (attributesText as ++ tailText closing ++ rest)) := by
      simp [attributesText]
    rw [hsplit, readAttributes?, if_pos (by rfl)]
    rw [hcs, List.cons_append] at hbehind ⊢
    rw [readAttributes?, if_neg (by simp [hblank]), if_neg (hne (by decide)),
      if_neg (fun h => hne (by decide) h.1), if_neg (by simp [hne]), hbehind]
    have hlength : (attributesText as ++ tailText closing ++ rest).length
        ≤ (s ++ (attributesText as ++ tailText closing ++ rest)).length := by
      simp
    simp only [if_pos hlength, ih fun a' ha' => has a' (List.mem_cons_of_mem a ha'),
      Option.map_some, List.map_cons, hcs]

theorem readTag?_startTagText {name : Text} {as : List (Text × Text)} (hname : isSmallName name = true)
    (has : ∀ a ∈ as, Readable a) (closing : Bool) (rest : Text) :
    readTag? (name ++ (attributesText as ++ tailText closing) ++ rest)
      = some (name, as.map fun a => ⟨a.1, attributeText a⟩, closing, rest) := by
  have hparts : ∀ c ∈ name, isTagNamePart c = true :=
    fun c hc => isTagNamePart_of_isSmallNamePart (all_of_isSmallName hname c hc)
  have hstop : ∀ c ∈ (attributesText as ++ tailText closing ++ rest).head?,
      isTagNamePart c = false := by
    have hspace : isTagNamePart ' ' = false := by decide
    have hbracket : isTagNamePart '>' = false := by decide
    cases as with
    | nil => cases closing <;> simp [attributesText, tailText, hspace, hbracket]
    | cons a as => simp [attributesText, hspace]
  obtain ⟨c, s, hcs, hc⟩ : ∃ c s, name = c :: s ∧ c.isAlpha = true := by
    cases name with
    | nil => simp [isSmallName] at hname
    | cons c s =>
      rw [isSmallName, Bool.and_eq_true] at hname
      exact ⟨c, s, rfl, Bool.or_eq_true_iff.2 (.inr hname.1)⟩
  have hfirst : name ++ (attributesText as ++ tailText closing) ++ rest
      = c :: (s ++ (attributesText as ++ tailText closing) ++ rest) := by
    simp [hcs]
  rw [hfirst, readTag?, if_pos hc, ← hfirst, List.append_assoc, takeWhile_run hparts hstop,
    dropWhile_run hparts hstop, readAttributes?_attributesText has]
  rfl

/-- A start tag that was written is found. -/
theorem scanFrom_startTagText {name : Text} {as : List (Text × Text)} (hname : isSmallName name = true)
    (hraw : name ∉ rawTextNames) (has : ∀ a ∈ as, Readable a) (closing : Bool) (offset : Nat)
    (rest : Text) :
    scanFrom offset (startTagText name as closing ++ rest)
      = writtenTag offset name as closing
        :: scanFrom (offset + (startTagText name as closing).length) rest := by
  have hread := readTag?_startTagText hname has closing rest
  have hcomment : after? "!--" (name ++ (attributesText as ++ tailText closing) ++ rest) = none := by
    cases name with
    | nil => simp [isSmallName] at hname
    | cons c s =>
      have hc : '!' ≠ c := by
        rintro rfl
        exact absurd (all_of_isSmallName hname '!' (by simp)) (by decide)
      simp [after?, hc]
  have hlower := lowerAscii_of_isSmallName hname
  have hlength : (name ++ (attributesText as ++ tailText closing) ++ rest).length + 1 - rest.length
      = (startTagText name as closing).length := by
    simp [startTagText]
    omega
  have hscan := scanFrom_of_readTag? hcomment hread (hlower.symm ▸ hraw) offset
  rw [hlength, hlower] at hscan
  exact hscan

/-- In an end tag nothing is found. -/
theorem scanFrom_endTagText {name : Text} (hname : '<' ∉ name) (offset : Nat) (rest : Text) :
    scanFrom offset (endTagText name ++ rest)
      = scanFrom (offset + (endTagText name).length) rest := by
  have hnone : readTag? ('/' :: (name ++ ['>']) ++ rest) = none := rfl
  have hno : '<' ∉ '/' :: (name ++ ['>']) := by simpa using hname
  rw [endTagText, List.cons_append, scanFrom_of_readTag?_eq_none (by simp [after?]) hnone,
    scanFrom_of_not_mem hno]
  congr 1
  simp
  omega

/-- The end tag that was written is found. -/
theorem endTagEnd?_endTagText (before name after : Text) :
    endTagEnd? (before ++ (endTagText name ++ after)) before.length name
      = some (before.length + (endTagText name).length) := by
  have hafter : after? "</" (endTagText name ++ after) = some (name ++ '>' :: after) := by
    rw [after?_eq_some]
    simp [endTagText]
  have hblank : trimStart ('>' :: after) = '>' :: after := rfl
  have hlength : (before ++ (endTagText name ++ after)).length - after.length
      = before.length + (endTagText name).length := by
    simp
    omega
  rw [endTagEnd?, List.drop_left, hafter]
  simp only [List.take_left, List.drop_left, hblank, hlength, if_true]

/-! ## Forests as they are written -/

/-- The names of the elements that are written without content and without an end tag. -/
def voidNames : List Text := ["img", "input"]

namespace Element

/-- What the start tag of an element carries: the id, the classes and the other attributes. -/
def carried (e : Element) : List (Text × Text) :=
  (e.id.map fun id => (("id" : Text), id)).toList
    ++ (if e.classes.isEmpty then [] else [(("class" : Text), join [' '] e.classes)])
    ++ e.attributes

/-- The text of an element as it is written. -/
def contentText (e : Element) : Text := (e.text.map escapeText).getD []

/-- The names and values of an element can be written in its tags. -/
@[mk_iff]
structure Writable (e : Element) : Prop where
  name : isSmallName e.tag = true
  notRaw : e.tag ∉ rawTextNames
  void : e.tag ∈ voidNames → e.text = none ∧ e.children = []
  carried : ∀ a ∈ e.carried, isSmallName a.1 = true ∧ isPlainValue a.2 = true
  once : (e.attributes.map (·.1)).Nodup

instance (e : Element) : Decidable e.Writable := decidable_of_iff' _ (writable_iff e)

theorem preorder_eq (e : Element) : preorder e = e :: preorderAll e.children := by
  cases e
  rw [preorder]

theorem preorderAll_cons_of_leaf {e : Element} (h : e.children = []) (es : List Element) :
    preorderAll (e :: es) = e :: preorderAll es := by
  rw [preorderAll, preorder_eq, h]
  rfl

/-- The attributes of an element can be read, in whatever order they are written. -/
theorem Writable.readable {e : Element} {as : List (Text × Text)} (he : e.Writable)
    (has : as.Perm e.carried) : ∀ a ∈ as, Readable a := by
  intro a ha
  obtain ⟨hname, hvalue⟩ := he.carried a (has.mem_iff.1 ha)
  exact ⟨hname, fun hq => absurd (List.all_eq_true.1 hvalue '"' hq) (by decide)⟩

theorem Writable.not_mem_tag {e : Element} (he : e.Writable) : '<' ∉ e.tag := fun hm =>
  absurd (all_of_isSmallName he.name '<' hm) (by decide)

theorem not_mem_contentText (e : Element) : '<' ∉ e.contentText := by
  cases h : e.text with
  | none => simp [contentText, h]
  | some t =>
    rw [contentText, h]
    exact not_mem_escapeText (by decide)

end Element

/-- The markup is one of those that the forest is written as. -/
inductive Writes : List Element → Text → Prop
  | nil : Writes [] []
  | gap {es : List Element} {t m : Text} (ht : '<' ∉ t) (hrest : Writes es m) : Writes es (t ++ m)
  | void {e : Element} {es : List Element} {as : List (Text × Text)} {m : Text}
      (he : e.tag ∈ voidNames) (has : as.Perm e.carried) (closing : Bool) (hrest : Writes es m) :
      Writes (e :: es) (startTagText e.tag as closing ++ m)
  | leaf {e : Element} {es : List Element} {as : List (Text × Text)} {m : Text}
      (he : e.tag ∉ voidNames) (hchildren : e.children = []) (has : as.Perm e.carried)
      (hrest : Writes es m) :
      Writes (e :: es) (startTagText e.tag as false ++ (e.contentText ++ (endTagText e.tag ++ m)))
  | parent {e : Element} {es : List Element} {as : List (Text × Text)} {inner m : Text}
      (he : e.tag ∉ voidNames) (hchildren : e.children ≠ []) (has : as.Perm e.carried)
      (hinner : Writes e.children inner) (hrest : Writes es m) :
      Writes (e :: es) (startTagText e.tag as false ++ (inner ++ (endTagText e.tag ++ m)))

/-! ## Where the elements stand -/

/-- The element stands at the tag and takes the place up to `stop`: an element without children its
whole markup, another one its start tag. -/
inductive Standing (whole : Text) (e : Element) : StartTag → Nat → Prop
  | opening {before after : Text} {as : List (Text × Text)} {closing : Bool}
      (he : e.tag ∈ voidNames ∨ e.children ≠ []) (has : as.Perm e.carried)
      (hwhole : whole = before ++ (startTagText e.tag as closing ++ after)) :
      Standing whole e (writtenTag before.length e.tag as closing)
        (before.length + (startTagText e.tag as closing).length)
  | leaf {before after : Text} {as : List (Text × Text)}
      (he : e.tag ∉ voidNames) (has : as.Perm e.carried)
      (hwhole : whole = before
        ++ (startTagText e.tag as false ++ (e.contentText ++ (endTagText e.tag ++ after)))) :
      Standing whole e (writtenTag before.length e.tag as false)
        (before.length + (startTagText e.tag as false).length + e.contentText.length
          + (endTagText e.tag).length)

namespace Standing

variable {whole : Text} {e : Element} {tag : StartTag} {stop : Nat}

theorem name (h : Standing whole e tag stop) : tag.name = e.tag := by
  cases h <;> rfl

theorem start_le (h : Standing whole e tag stop) : tag.start ≤ stop := by
  cases h with
  | opening => exact Nat.le_add_right ..
  | leaf =>
    change List.length _ ≤ _
    omega

end Standing

/-- The elements stand at the tags, one behind the other, between two places. -/
inductive Sites (whole : Text) : Nat → List Element → List StartTag → Nat → Prop
  | nil {a b : Nat} (h : a ≤ b) : Sites whole a [] [] b
  | cons {a b stop : Nat} {e : Element} {es : List Element} {tag : StartTag}
      {tags : List StartTag} (hstart : a ≤ tag.start) (h : Standing whole e tag stop)
      (hrest : Sites whole stop es tags b) : Sites whole a (e :: es) (tag :: tags) b

namespace Sites

variable {whole : Text} {a b c : Nat} {es es' : List Element} {tags tags' : List StartTag}

theorem of_le (hab : a ≤ b) (h : Sites whole b es tags c) : Sites whole a es tags c := by
  cases h with
  | nil hbc => exact .nil (Nat.le_trans hab hbc)
  | cons hstart h hrest => exact .cons (Nat.le_trans hab hstart) h hrest

theorem append (h : Sites whole a es tags b) (h' : Sites whole b es' tags' c) :
    Sites whole a (es ++ es') (tags ++ tags') c := by
  induction h with
  | nil hab => exact h'.of_le hab
  | cons hstart h _ ih => exact .cons hstart h (ih h')

end Sites

/-- Where a forest is written, the start tags of its elements are found, and the scan goes on
behind it. -/
theorem scan_of_writes {forest : List Element} {m : Text} (h : Writes forest m)
    (hforest : ∀ e ∈ Element.preorderAll forest, e.Writable) {whole before after : Text} {o : Nat}
    (hwhole : whole = before ++ (m ++ after)) (ho : o = before.length) :
    ∃ tags, scanFrom o (m ++ after) = tags ++ scanFrom (o + m.length) after
      ∧ Sites whole o (Element.preorderAll forest) tags (o + m.length) := by
  subst ho
  induction h generalizing before after with
  | nil => exact ⟨[], by simp, .nil (by simp)⟩
  | @gap es t m ht _ ih =>
    obtain ⟨tags, hscan, hsites⟩ := ih hforest (show whole = (before ++ t) ++ (m ++ after) by simp [hwhole])
    simp only [List.length_append, ← Nat.add_assoc] at hscan hsites ⊢
    refine ⟨tags, ?_, hsites.of_le (Nat.le_add_right _ _)⟩
    rw [List.append_assoc, scanFrom_of_not_mem ht, hscan]
  | @void e es as m he has closing _ ih =>
    have hwritable : e.Writable :=
      hforest e (Element.mem_preorderAll_of_mem (List.mem_cons_self ..))
    rw [Element.preorderAll_cons_of_leaf (hwritable.void he).2] at hforest ⊢
    obtain ⟨tags, hscan, hsites⟩ := ih (fun e' he' => hforest e' (List.mem_cons_of_mem e he'))
      (show whole = (before ++ startTagText e.tag as closing) ++ (m ++ after) by simp [hwhole])
    rw [List.length_append] at hscan hsites
    refine ⟨writtenTag before.length e.tag as closing :: tags, ?_, ?_⟩
    · rw [List.append_assoc, scanFrom_startTagText hwritable.name hwritable.notRaw
        (hwritable.readable has), hscan, List.cons_append, List.length_append, Nat.add_assoc]
    · rw [List.length_append, ← Nat.add_assoc]
      exact .cons (Nat.le_refl _) (.opening (.inl he) has (by rw [hwhole, List.append_assoc])) hsites
  | @leaf e es as m he hchildren has _ ih =>
    have hwritable : e.Writable :=
      hforest e (Element.mem_preorderAll_of_mem (List.mem_cons_self ..))
    rw [Element.preorderAll_cons_of_leaf hchildren] at hforest ⊢
    obtain ⟨tags, hscan, hsites⟩ := ih (fun e' he' => hforest e' (List.mem_cons_of_mem e he'))
      (show whole = (before ++ (startTagText e.tag as false
        ++ (e.contentText ++ endTagText e.tag))) ++ (m ++ after) by simp [hwhole])
    simp only [List.length_append, ← Nat.add_assoc] at hscan hsites ⊢
    refine ⟨writtenTag before.length e.tag as false :: tags, ?_, ?_⟩
    · rw [List.append_assoc, scanFrom_startTagText hwritable.name hwritable.notRaw
        (hwritable.readable has), List.append_assoc, scanFrom_of_not_mem e.not_mem_contentText,
        List.append_assoc, scanFrom_endTagText hwritable.not_mem_tag, hscan, List.cons_append]
    · exact .cons (Nat.le_refl _) (.leaf he has (show whole = before ++ (startTagText e.tag as false
        ++ (e.contentText ++ (endTagText e.tag ++ (m ++ after)))) by simp [hwhole])) hsites
  | @parent e es as inner m he hchildren has _ _ ihinner ih =>
    have hpre : Element.preorderAll (e :: es)
        = e :: (Element.preorderAll e.children ++ Element.preorderAll es) := by
      rw [Element.preorderAll, Element.preorder_eq, List.cons_append]
    rw [hpre] at hforest ⊢
    have hwritable : e.Writable := hforest e (List.mem_cons_self ..)
    obtain ⟨tags, hscan, hsites⟩ := ihinner
      (fun e' he' => hforest e' (List.mem_cons_of_mem e (List.mem_append_left _ he')))
      (show whole = (before ++ startTagText e.tag as false)
        ++ (inner ++ (endTagText e.tag ++ (m ++ after))) by simp [hwhole])
    obtain ⟨tags', hscan', hsites'⟩ := ih
      (fun e' he' => hforest e' (List.mem_cons_of_mem e (List.mem_append_right _ he')))
      (show whole = (before ++ (startTagText e.tag as false ++ (inner ++ endTagText e.tag)))
        ++ (m ++ after) by simp [hwhole])
    simp only [List.length_append, ← Nat.add_assoc] at hscan hsites hscan' hsites' ⊢
    refine ⟨writtenTag before.length e.tag as false :: (tags ++ tags'), ?_, ?_⟩
    · rw [List.append_assoc, scanFrom_startTagText hwritable.name hwritable.notRaw
        (hwritable.readable has), List.append_assoc, List.append_assoc, hscan,
        scanFrom_endTagText hwritable.not_mem_tag, hscan', List.cons_append, List.append_assoc]
    · exact .cons (Nat.le_refl _)
        (.opening (.inr hchildren) has (show whole = before ++ (startTagText e.tag as false
          ++ (inner ++ (endTagText e.tag ++ (m ++ after)))) by simp [hwhole]))
        (hsites.append (hsites'.of_le (Nat.le_add_right _ _)))

/-- In the markup of a forest the start tags of its elements are found, and no others. -/
theorem sites_of_writes {forest : List Element} {m : Text} (h : Writes forest m)
    (hforest : ∀ e ∈ Element.preorderAll forest, e.Writable) :
    Sites m 0 (Element.preorderAll forest) (scanStartTags m) m.length := by
  obtain ⟨tags, hscan, hsites⟩ := scan_of_writes h hforest
    (show m = [] ++ (m ++ []) by simp) rfl
  have hend : scanFrom m.length [] = [] := by rw [scanFrom]
  rw [List.append_nil, List.length_nil, Nat.zero_add, hend, List.append_nil] at hscan
  rw [List.length_nil, Nat.zero_add] at hsites
  rw [scanStartTags, hscan]
  exact hsites

end WidgetCompiler.Markup
