import WidgetCompiler.Proofs.Style.Leaves
import WidgetCompiler.Proofs.Style.Selectors
import WidgetCompiler.Proofs.Text.Pieces

/-!
# Pruning keeps the rules that match

A selector matches an element at a place of a forest, which is the element with its earlier siblings
and with the elements that it stands in (`Place`).  A rule is kept if one of its selectors names
something that the forest has or names nothing (`isRelevant_iff`).  Whatever matches names something
that the forest has as long as its names are what it matches by (`Selector.Grounded`), and then the
rule is kept (`mem_leaves_relevantTo`).

A selector that only names what an element is not matches by none of its names, and its rule can be
lost (`prune_not_note`).
-/

namespace WidgetCompiler.Style

open Text Markup

/-! ## Places in a forest -/

/-- An element with the siblings before it, the nearest first, and with the elements around it, the
innermost first and each with the siblings before it. -/
structure Place where
  element : Element
  before : List Element := []
  above : List (Element × List Element) := []

namespace Place

/-- The places of the elements around, the innermost first. -/
def ancestorsOf : List (Element × List Element) → List Place
  | [] => []
  | (e, before) :: above => ⟨e, before, above⟩ :: ancestorsOf above

/-- The places of the siblings before, the nearest first. -/
def siblingsOf (above : List (Element × List Element)) : List Element → List Place
  | [] => []
  | e :: before => ⟨e, before, above⟩ :: siblingsOf above before

/-- The places that a combinator relates to a place. -/
def related (p : Place) : Combinator → List Place
  | .descendant => ancestorsOf p.above
  | .child => (ancestorsOf p.above).take 1
  | .next => (siblingsOf p.above p.before).take 1
  | .later => siblingsOf p.above p.before

end Place

/-- The place is one of the forest. -/
inductive Stands (forest : List Element) : Place → Prop
  | root {e : Element} {before after : List Element} : forest = before.reverse ++ e :: after →
      Stands forest ⟨e, before, []⟩
  | child {p : Place} {e : Element} {before after : List Element} : Stands forest p →
      p.element.children = before.reverse ++ e :: after →
      Stands forest ⟨e, before, (p.element, p.before) :: p.above⟩

/-! ## Matching -/

section

variable (asks : Text → Element → Bool)

/-- The selector matches the element at a place, given what attribute selectors ask for. -/
def Selector.Matches : Selector → Place → Prop
  | .type name, p => lowerAscii name = p.element.tag
  | .universal, _ => True
  | .class name, p => name ∈ p.element.classes
  | .id name, p => p.element.id = some name
  | .attr inside, p => asks inside p.element = true
  | .not s, p => ¬ s.Matches p
  | .is s, p => s.Matches p
  | .both s t, p => s.Matches p ∧ t.Matches p
  | .combined s link t, p => t.Matches p ∧ ∃ q ∈ p.related link, s.Matches q
  | .either s t, p => s.Matches p ∨ t.Matches p

end

/-- An element is matched by the type that it is made of. -/
theorem matches_type_make {asks : Text → Element → Bool} {tag : Text} {classes : List Text}
    {id text : Option Text} {attributes : List (Text × Text)} {children before : List Element}
    {above : List (Element × List Element)} : (Selector.type tag).Matches asks
      ⟨Element.make tag classes id text attributes children, before, above⟩ := rfl

/-- Whatever the selector matches, it matches by one of its names. -/
def Selector.Grounded : Selector → Prop
  | .type _ => True
  | .universal => False
  | .class _ => True
  | .id _ => True
  | .attr _ => False
  | .not _ => False
  | .is s => s.Grounded
  | .both s t => s.Grounded ∨ t.Grounded
  | .combined s _ t => s.Grounded ∨ t.Grounded
  | .either s t => s.Grounded ∧ t.Grounded

variable {forest : List Element} {p q : Place} {asks : Text → Element → Bool} {s : Selector}

/-! ## What stands in a forest -/

/-- The element at a place of a forest is one of the forest's. -/
theorem Stands.mem_preorderAll (h : Stands forest p) : p.element ∈ Element.preorderAll forest := by
  induction h with
  | root hforest => exact Element.mem_preorderAll_of_split hforest
  | child _ hchildren ih =>
    exact Element.preorderAll_children_subset forest ih
      (Element.mem_preorderAll_of_split hchildren)

theorem Stands.ancestors (h : Stands forest p) : ∀ q ∈ Place.ancestorsOf p.above, Stands forest q := by
  induction h with
  | root => simp [Place.ancestorsOf]
  | child hp _ ih => exact List.forall_mem_cons.2 ⟨hp, ih⟩

theorem Stands.siblings {e : Element} {before : List Element} {above : List (Element × List Element)}
    (h : Stands forest ⟨e, before, above⟩) :
    ∀ q ∈ Place.siblingsOf above before, Stands forest q := by
  induction before generalizing e with
  | nil => simp [Place.siblingsOf]
  | cons d before ih =>
    have hd : Stands forest ⟨d, before, above⟩ := by
      cases h with
      | @root _ _ after hforest =>
        have hforest : forest = before.reverse ++ d :: (e :: after) := by simpa using hforest
        exact .root hforest
      | @child p _ _ after hp hchildren =>
        have hchildren : p.element.children = before.reverse ++ d :: (e :: after) := by
          simpa using hchildren
        exact .child hp hchildren
    exact List.forall_mem_cons.2 ⟨hd, ih hd⟩

/-- A combinator does not lead out of the forest. -/
theorem Stands.related (h : Stands forest p) (link : Combinator) :
    ∀ q ∈ p.related link, Stands forest q := by
  cases link with
  | descendant => exact h.ancestors
  | child => exact fun q hq => h.ancestors q (List.mem_of_mem_take hq)
  | next => exact fun q hq => Stands.siblings h q (List.mem_of_mem_take hq)
  | later => exact Stands.siblings h

/-! ## Relevance -/

/-- An element has what a reference names. -/
def SelectorRef.Names : SelectorRef → Element → Prop
  | .type name, e => name = e.tag
  | .class name, e => name ∈ e.classes
  | .id name, e => e.id = some name

/-- What the elements of a forest have is in its set. -/
theorem isIn_ofForest {ref : SelectorRef} :
    ref.isIn (.ofForest forest) = true ↔ ∃ e ∈ Element.preorderAll forest, ref.Names e := by
  cases ref with
  | type name =>
    simp [SelectorRef.isIn, SelectorRef.Names, SelectorSet.ofForest, mem_sortDistinct, eq_comm]
  | «class» name =>
    simp [SelectorRef.isIn, SelectorRef.Names, SelectorSet.ofForest, mem_sortDistinct]
  | id name =>
    simp [SelectorRef.isIn, SelectorRef.Names, SelectorSet.ofForest, mem_sortDistinct]

/-- A grounded selector that matches somewhere in a forest names something that the forest has. -/
theorem Selector.Grounded.exists_isIn (hs : s.Grounded) (hp : Stands forest p)
    (hmatch : s.Matches asks p) : ∃ ref ∈ s.names, ref.isIn (.ofForest forest) = true := by
  induction s generalizing p with
  | type name =>
    exact ⟨_, List.mem_singleton_self _, isIn_ofForest.2 ⟨p.element, hp.mem_preorderAll, hmatch⟩⟩
  | universal => exact hs.elim
  | «class» name =>
    exact ⟨_, List.mem_singleton_self _, isIn_ofForest.2 ⟨p.element, hp.mem_preorderAll, hmatch⟩⟩
  | id name =>
    exact ⟨_, List.mem_singleton_self _, isIn_ofForest.2 ⟨p.element, hp.mem_preorderAll, hmatch⟩⟩
  | attr inside => exact hs.elim
  | not inner _ => exact hs.elim
  | is inner ih => exact ih hs hp hmatch
  | both s t ihs iht =>
    rcases hs with hs | hs
    · obtain ⟨ref, href, hin⟩ := ihs hs hp hmatch.1
      exact ⟨ref, List.mem_append_left _ href, hin⟩
    · obtain ⟨ref, href, hin⟩ := iht hs hp hmatch.2
      exact ⟨ref, List.mem_append_right _ href, hin⟩
  | combined s link t ihs iht =>
    obtain ⟨ht, q, hq, hsq⟩ := hmatch
    rcases hs with hs | hs
    · obtain ⟨ref, href, hin⟩ := ihs hs (hp.related link q hq) hsq
      exact ⟨ref, List.mem_append_left _ href, hin⟩
    · obtain ⟨ref, href, hin⟩ := iht hs hp ht
      exact ⟨ref, List.mem_append_right _ href, hin⟩
  | either s t ihs iht =>
    rcases hmatch with hmatch | hmatch
    · obtain ⟨ref, href, hin⟩ := ihs hs.1 hp hmatch
      exact ⟨ref, List.mem_append_left _ href, hin⟩
    · obtain ⟨ref, href, hin⟩ := iht hs.2 hp hmatch
      exact ⟨ref, List.mem_append_right _ href, hin⟩

/-- A selector is relevant if it names nothing, or something that the forest has. -/
theorem isRelevant_iff {role : Role} {t : Text} {used : SelectorSet} (h : Writes role s t) :
    isRelevant used t = true ↔ s.names = [] ∨ ∃ ref ∈ s.names, ref.isIn used = true := by
  rw [isRelevant, references_of_writes h, Bool.or_eq_true, List.isEmpty_iff, List.any_eq_true]

/-! ## Rules that are kept -/

namespace Sheet

/-- Exactly the rules with a relevant selector are kept. -/
theorem mem_leaves_relevantTo_iff {sheet : Sheet} {used : SelectorSet} {conditions : List Text}
    {r : Rule} : (⟨conditions, .inl r⟩ : Leaf) ∈ (sheet.relevantTo used).leaves
      ↔ ⟨conditions, .inl r⟩ ∈ sheet.leaves ∧ ∃ t ∈ r.selectors, isRelevant used t = true := by
  have hkept (leaf : Leaf) : leaf.change? (Rule.relevant? used) = some ⟨conditions, .inl r⟩
      ↔ leaf = ⟨conditions, .inl r⟩ ∧ ∃ t ∈ r.selectors, isRelevant used t = true := by
    obtain ⟨above, r' | t⟩ := leaf
    · by_cases hany : r'.selectors.any (isRelevant used) = true
      · have hr' : ∃ t ∈ r'.selectors, isRelevant used t = true := List.any_eq_true.1 hany
        simp only [Leaf.change?, Rule.relevant?, hany, if_true, Sum.elim_inl, Option.map_some,
          Option.some.injEq]
        constructor
        · intro heq
          refine ⟨heq, ?_⟩
          obtain ⟨-, rfl⟩ : above = conditions ∧ r' = r := by simpa using heq
          exact hr'
        · exact And.left
      · simp only [Leaf.change?, Rule.relevant?, hany, Bool.false_eq_true, if_false, Sum.elim_inl,
          Option.map_none, reduceCtorEq, false_iff]
        rintro ⟨heq, hr⟩
        obtain ⟨-, rfl⟩ : above = conditions ∧ r' = r := by simpa using heq
        exact hany (List.any_eq_true.2 hr)
    · simp [Leaf.change?]
  rw [leaves, relevantTo, leavesUnder_filterMapRules, List.mem_filterMap, leaves]
  simp only [hkept]
  constructor
  · rintro ⟨leaf, hmem, heq, hany⟩
    exact ⟨heq ▸ hmem, hany⟩
  · rintro ⟨hmem, hany⟩
    exact ⟨_, hmem, rfl, hany⟩

/-- A rule of a sheet is written in it. -/
theorem infix_render {sheet : Sheet} {conditions : List Text} {r : Rule}
    (h : ⟨conditions, .inl r⟩ ∈ sheet.leaves) : r.render <:+: sheet.render := by
  have along (sheet : Sheet) (above : List Text) (indent : Text)
      (h : ⟨conditions, .inl r⟩ ∈ leavesUnder above sheet) :
      ∃ l ∈ renderLines indent sheet, r.render <:+: l := by
    fun_induction leavesUnder above sheet generalizing indent with
    | case1 => simp at h
    | case2 above r' ns ih =>
      rw [renderLines]
      rcases List.mem_cons.1 h with h | h
      · obtain ⟨-, rfl⟩ : conditions = above ∧ r = r' := by simpa using h
        exact ⟨_, List.mem_cons_self, (List.suffix_append _ _).isInfix⟩
      · obtain ⟨l, hl, hr⟩ := ih indent h
        exact ⟨l, List.mem_cons_of_mem _ hl, hr⟩
    | case3 above condition children ns ihc ih =>
      rw [renderLines]
      rcases List.mem_append.1 h with h | h
      · obtain ⟨l, hl, hr⟩ := ihc (indent ++ "  ") h
        exact ⟨l, List.mem_append_left _ (List.mem_cons_of_mem _ hl), hr⟩
      · obtain ⟨l, hl, hr⟩ := ih indent h
        exact ⟨l, List.mem_append_right _ (List.mem_cons_of_mem _ hl), hr⟩
    | case4 above t ns ih =>
      rw [renderLines]
      obtain ⟨l, hl, hr⟩ := ih indent (by simpa using h)
      exact ⟨l, List.mem_cons_of_mem _ hl, hr⟩
  obtain ⟨l, hl, hr⟩ := along sheet [] [] h
  exact hr.trans (infix_joinLines hl)

end Sheet

/-! ## Pruning -/

/-- What a selector in `:not` is written as without blanks. -/
theorem writes_not {t : Text} (h : Writes .list s t) :
    Writes .suffix (.not s) (':' :: (("not(" : Text) ++ (t ++ [')']))) := by
  have hgap : IsGap [] := fun c hc => absurd hc List.not_mem_nil
  have := Writes.not (show lowerAscii ("not" : Text) = "not" from rfl) hgap hgap h
  simpa using this

/-- Pruning keeps the rules that match something in the forest, where they stand, if they match it by
one of their names or have none. -/
theorem mem_leaves_relevantTo {css t : Text} {conditions : List Text} {r : Rule}
    (hr : ⟨conditions, .inl r⟩ ∈ (Sheet.parse css).leaves) (ht : t ∈ r.selectors)
    (hs : Writes .complex s t) (hp : Stands forest p) (hmatch : s.Matches asks p)
    (hground : s.Grounded ∨ s.names = []) :
    (⟨conditions, .inl r⟩ : Sheet.Leaf) ∈ ((Sheet.parse css).relevantTo (.ofForest forest)).leaves
      ∧ r.render <:+: prune (.ofForest forest) css := by
  have hrelevant : isRelevant (.ofForest forest) t = true := by
    rw [isRelevant_iff hs]
    rcases hground with hground | hnone
    · exact .inr (hground.exists_isIn hp hmatch)
    · exact .inl hnone
  have hkept : (⟨conditions, .inl r⟩ : Sheet.Leaf)
      ∈ ((Sheet.parse css).relevantTo (.ofForest forest)).leaves :=
    Sheet.mem_leaves_relevantTo_iff.2 ⟨hr, t, ht, hrelevant⟩
  exact ⟨hkept, Sheet.infix_render hkept⟩

/-- The rule for the paragraphs of a division that are no notes. -/
def paragraphRule : Rule := ⟨["div > p:not(.note)"], "color: red;"⟩

/-- The rule, as it stands in a sheet for printed pages. -/
def printedCss : Text := "@media print\x7bdiv > p:not(.note) \x7b color: red; \x7d\x7d"

theorem parse_printedCss : Sheet.parse printedCss = [.group "@media print" [.rule paragraphRule]] := by
  have hprelude : preludeEnd? none 0 printedCss = some (("@media print" : Text), .block,
      ("div > p:not(.note) \x7b color: red; \x7d\x7d" : Text)) := by decide +kernel
  have hbody : blockEnd? .plain 0 "div > p:not(.note) \x7b color: red; \x7d\x7d"
      = some (("div > p:not(.note) \x7b color: red; \x7d" : Text), []) := by decide +kernel
  have hprelude' : preludeEnd? none 0 "div > p:not(.note) \x7b color: red; \x7d"
      = some (("div > p:not(.note) " : Text), .block, (" color: red; \x7d" : Text)) := by decide +kernel
  have hbody' : blockEnd? .plain 0 " color: red; \x7d" = some ((" color: red; " : Text), []) := by
    decide +kernel
  have hrule : (⟨splitSelectors (trim "div > p:not(.note) "), oneLine " color: red; "⟩ : Rule)
      = paragraphRule := by decide +kernel
  have hcondition : trim "@media print" = '@' :: ("media print" : Text) := by decide +kernel
  have hinner : Sheet.parse "div > p:not(.note) \x7b color: red; \x7d" = [.rule paragraphRule] := by
    refine (Sheet.parse_rule (by decide) (by decide +kernel) hprelude' hbody' (by decide +kernel)).trans ?_
    rw [hrule, Sheet.parse]
  refine (Sheet.parse_group (by decide) (by decide +kernel) hprelude hbody
    hcondition (by decide +kernel)).trans ?_
  rw [hcondition, hinner, Sheet.parse]
  rfl

/-- A paragraph in a division that is not a note. -/
theorem mem_leaves_relevantTo_printed :
    let p := Element.make "p" [] none none [] []
    let forest := [Element.make "div" [] none none [] [p]]
    (⟨["@media print"], .inl paragraphRule⟩ : Sheet.Leaf)
        ∈ ((Sheet.parse printedCss).relevantTo (.ofForest forest)).leaves
      ∧ paragraphRule.render <:+: prune (.ofForest forest) printedCss := by
  intro p forest
  have hleaf : (⟨["@media print"], .inl paragraphRule⟩ : Sheet.Leaf)
      ∈ (Sheet.parse printedCss).leaves := by
    simp [parse_printedCss, Sheet.leaves, Sheet.leavesUnder]
  have hdiv : Writes .complex (.type "div") "div" :=
    .alone (.type (by decide) (.part (by decide) (.part (by decide) .nil)))
  have hnote : Writes .complex (.class "note") ".note" :=
    .alone (.bare (.class (by decide) (.part (by decide) (.part (by decide) (.part (by decide)
      (.part (by decide) .nil))))))
  have hp : Writes .compound (.both (.type "p") (.not (.class "note"))) "p:not(.note)" :=
    .both (t := "p") (.type (by decide) .nil) (writes_not (.single hnote))
  have hgap : IsGap " " := fun c hc => .inl (List.mem_singleton.1 hc)
  have hchild : Combinator.child.Writes " > " := ⟨" ", " ", hgap, hgap, by decide⟩
  have hdivision : Stands forest ⟨Element.make "div" [] none none [] [p], [], []⟩ :=
    .root (show forest = [].reverse ++ Element.make "div" [] none none [] [p] :: [] from rfl)
  have hplace : Stands forest ⟨p, [], [(Element.make "div" [] none none [] [p], [])]⟩ :=
    .child hdivision (show [p] = [].reverse ++ p :: [] from rfl)
  have hmatch : Selector.Matches (fun _ _ => false)
      (.combined (.type "div") .child (.both (.type "p") (.not (.class "note"))))
      ⟨p, [], [(Element.make "div" [] none none [] [p], [])]⟩ :=
    ⟨⟨matches_type_make, List.not_mem_nil⟩, _, List.mem_singleton_self _, matches_type_make⟩
  exact mem_leaves_relevantTo hleaf (List.mem_singleton_self _) (.combined hdiv hchild hp) hplace
    hmatch (.inl (.inr (.inl trivial)))

/-- The sheet that loses its rule. -/
theorem parse_not_note : Sheet.parse ":not(.note) \x7b color: red; \x7d"
    = [.rule ⟨[":not(.note)"], "color: red;"⟩] := by
  have hprelude : preludeEnd? none 0 ":not(.note) \x7b color: red; \x7d"
      = some ((":not(.note) " : Text), .block, (" color: red; \x7d" : Text)) := by decide +kernel
  have hbody : blockEnd? .plain 0 " color: red; \x7d" = some ((" color: red; " : Text), []) := by
    decide +kernel
  have hrule : (⟨splitSelectors (trim ":not(.note) "), oneLine " color: red; "⟩ : Rule)
      = ⟨[":not(.note)"], "color: red;"⟩ := by decide +kernel
  refine (Sheet.parse_rule (by decide) (by decide +kernel) hprelude hbody (by decide +kernel)).trans ?_
  rw [hrule, Sheet.parse]

/-- A rule for whatever is not a note is lost where there is a paragraph and no note. -/
theorem prune_not_note :
    let css : Text := ":not(.note) \x7b color: red; \x7d"
    let p := Element.make "p" [] none none [] []
    (⟨[], .inl ⟨[":not(.note)"], "color: red;"⟩⟩ : Sheet.Leaf) ∈ (Sheet.parse css).leaves
      ∧ Writes .complex (.not (.class "note")) ":not(.note)" ∧ Stands [p] ⟨p, [], []⟩
      ∧ (Selector.not (.class "note")).Matches (fun _ _ => false) ⟨p, [], []⟩
      ∧ prune (.ofForest [p]) css = [] := by
  intro css p
  have hnote : Writes .complex (.class "note") ".note" :=
    .alone (.bare (.class (by decide) (.part (by decide) (.part (by decide) (.part (by decide)
      (.part (by decide) .nil))))))
  have hnot : Writes .complex (.not (.class "note")) ":not(.note)" :=
    .alone (.bare (writes_not (.single hnote)))
  have hrule : ¬ isRelevant (.ofForest [p]) ":not(.note)" = true := by
    rw [isRelevant_iff hnot]
    simp [Selector.names, isIn_ofForest, SelectorRef.Names, Element.preorderAll, Element.preorder,
      p, Element.make, distinct, distinct.go]
  have hlost : prune (.ofForest [p]) css = [] := by
    rw [prune, parse_not_note, Sheet.relevantTo, Sheet.filterMapRules, Rule.relevant?, List.any_cons,
      Bool.eq_false_iff.2 hrule, List.any_nil, Bool.or_false, if_neg Bool.false_ne_true,
      Sheet.filterMapRules, Sheet.render, Sheet.renderLines, joinLines]
  have hplace : Stands [p] ⟨p, [], []⟩ := .root (show [p] = [].reverse ++ p :: [] from rfl)
  refine ⟨?_, hnot, hplace, List.not_mem_nil, hlost⟩
  rw [parse_not_note, Sheet.leaves, Sheet.leavesUnder]
  exact List.mem_cons_self
end WidgetCompiler.Style
