import WidgetCompiler.Proofs.Style.Rereading
import WidgetCompiler.Style.Prepare

/-!
# What is left of a sheet

A pass over a sheet takes each rule for itself: it drops the rule or exchanges it for another.  So what
a pass leaves of a sheet is said by its leaves (`leavesUnder_filterMapRules`, `leavesUnder_mapRules`):
each leaf is dropped or changed where it stands, under the conditions that it stood under.

`Sheet.prepare` is three passes, and a rule that a later pass drops can empty a group that an earlier one
kept.  Taken together they are one filter on the leaves, and no group is left empty (`leaves_prepare`).
-/

namespace WidgetCompiler.Style

open Text

namespace Sheet

/-! ## Passes over the leaves -/

namespace Leaf

/-- A leaf whose rule is exchanged for what `f` makes of it, or that is dropped with its rule.  A piece
that is kept as it was written stays. -/
def change? (f : Rule → Option Rule) (leaf : Leaf) : Option Leaf :=
  leaf.content.elim (fun r => (f r).map fun r' => ⟨leaf.conditions, .inl r'⟩) fun _ => some leaf

/-- Two passes are one. -/
theorem change?_bind (f g : Rule → Option Rule) (leaf : Leaf) :
    (leaf.change? f).bind (change? g) = leaf.change? fun r => (f r).bind g := by
  obtain ⟨conditions, r | t⟩ := leaf
  · cases h : f r <;> simp [change?, h]
  · rfl

@[simp] theorem change?_some : change? some = some := by
  funext ⟨conditions, content⟩
  cases content <;> rfl

theorem filterMap_change? (f g : Rule → Option Rule) (leaves : List Leaf) :
    (leaves.filterMap (change? f)).filterMap (change? g)
      = leaves.filterMap (change? fun r => (f r).bind g) := by
  rw [List.filterMap_filterMap]
  exact List.filterMap_congr fun leaf _ => change?_bind f g leaf

end Leaf

theorem leavesUnder_filterMapRules (f : Rule → Option Rule) (conditions : List Text) (sheet : Sheet) :
    leavesUnder conditions (filterMapRules f sheet)
      = (leavesUnder conditions sheet).filterMap (Leaf.change? f) := by
  fun_induction filterMapRules f sheet generalizing conditions with
  | case1 => simp [leavesUnder]
  | case2 r ns r' hr ih => simp [leavesUnder, Leaf.change?, hr, ih]
  | case3 r ns hr ih => simp [leavesUnder, Leaf.change?, hr, ih]
  | case4 condition children ns hkept ihc ih =>
    -- the group is dropped because nothing is left of its leaves
    have hnone := ihc (conditions ++ [condition])
    rw [hkept, leavesUnder] at hnone
    rw [leavesUnder, List.filterMap_append, ← hnone, ih, List.nil_append]
  | case5 condition children ns hkept ihc ih =>
    rw [leavesUnder, leavesUnder, List.filterMap_append, ← ihc, ih]
  | case6 t ns ih => simp [leavesUnder, Leaf.change?, ih]

theorem leavesUnder_mapRules (f : Rule → Rule) (conditions : List Text) (sheet : Sheet) :
    leavesUnder conditions (mapRules f sheet)
      = (leavesUnder conditions sheet).filterMap (Leaf.change? fun r => some (f r)) := by
  fun_induction mapRules f sheet generalizing conditions with
  | case1 => simp [leavesUnder]
  | case2 r ns ih => simp [leavesUnder, Leaf.change?, ih]
  | case3 condition children ns ihc ih =>
    rw [leavesUnder, leavesUnder, List.filterMap_append, ← ihc, ih]
  | case4 t ns ih => simp [leavesUnder, Leaf.change?, ih]

/-! ## Groups that hold something -/

/-- No group of a sheet is empty, however deep it stands. -/
inductive Filled : List Node → Prop
  | nil : Filled []
  | rule {r : Rule} {ns : List Node} : Filled ns → Filled (.rule r :: ns)
  | group {condition : Text} {children ns : List Node} : children ≠ [] → Filled children →
      Filled ns → Filled (.group condition children :: ns)
  | raw {t : Text} {ns : List Node} : Filled ns → Filled (.raw t :: ns)

/-- Where rules are dropped, the groups that they leave empty are dropped with them. -/
theorem filled_filterMapRules (f : Rule → Option Rule) (sheet : Sheet) :
    Filled (filterMapRules f sheet) := by
  fun_induction filterMapRules f sheet with
  | case1 => exact .nil
  | case2 r ns r' hr ih => exact .rule ih
  | case3 r ns hr ih => exact ih
  | case4 condition children ns hkept ihc ih => exact ih
  | case5 condition children ns hkept ihc ih => exact .group hkept ihc ih
  | case6 t ns ih => exact .raw ih

theorem Filled.mapRules {sheet : Sheet} (h : Filled sheet) (f : Rule → Rule) :
    Filled (mapRules f sheet) := by
  induction h with
  | nil =>
    rw [Sheet.mapRules]
    exact .nil
  | rule _ ih =>
    rw [Sheet.mapRules]
    exact .rule ih
  | @group condition children ns hne _ _ ihc ih =>
    rw [Sheet.mapRules]
    refine .group (fun hnil => hne ?_) ihc ih
    cases children with
    | nil => rfl
    | cons n ns => cases n <;> simp [Sheet.mapRules] at hnil
  | raw _ ih =>
    rw [Sheet.mapRules]
    exact .raw ih

end Sheet

/-! ## Preparing a sheet -/

namespace Rule

/-- Whether a rule is kept in the sheet of a widget: it has a selector that does not mean the page as a
whole and, where the fragment uses anything, one that is relevant, be it of the page or not. -/
def IsWanted (used : Option Markup.SelectorSet) (r : Rule) : Prop :=
  (∃ t ∈ r.selectors, isGlobal t = false)
    ∧ ∀ set ∈ used, set.isEmpty = false → ∃ t ∈ r.selectors, isRelevant set t = true

instance (used : Option Markup.SelectorSet) (r : Rule) : Decidable (r.IsWanted used) :=
  inferInstanceAs (Decidable (_ ∧ _))

/-- What a rule becomes in the sheet of a widget.  Of its selectors those stay that do not mean the page,
below the wrapper if there is one. -/
def prepared? (used : Option Markup.SelectorSet) (wrapper : Option Text) (r : Rule) : Option Rule :=
  if r.IsWanted used then
    some ⟨(r.selectors.filter (!isGlobal ·)).map fun t => wrapper.elim t (scope · t), r.declarations⟩
  else none

theorem withoutGlobal?_eq (r : Rule) : r.withoutGlobal?
    = if ∃ t ∈ r.selectors, isGlobal t = false then
        some ⟨r.selectors.filter (!isGlobal ·), r.declarations⟩
      else none := by
  unfold withoutGlobal?
  split
  · next hnone =>
    rw [if_neg]
    rintro ⟨t, ht, hglobal⟩
    have hkept : t ∈ r.selectors.filter (!isGlobal ·) := List.mem_filter.2 ⟨ht, by simp [hglobal]⟩
    rw [hnone] at hkept
    exact absurd hkept List.not_mem_nil
  · next hkept =>
    obtain ⟨t, ht⟩ := List.exists_mem_of_ne_nil _ hkept
    obtain ⟨hmem, hglobal⟩ := List.mem_filter.1 ht
    rw [if_pos ⟨t, hmem, by simpa using hglobal⟩]

/-- A rule without selectors of the page, if it has others, below the wrapper. -/
theorem withoutGlobal?_bind (wrapper : Option Text) (r : Rule) :
    r.withoutGlobal?.bind (fun r => some (wrapper.elim r (scopeTo · r))) = prepared? none wrapper r := by
  have hused : r.IsWanted none ↔ ∃ t ∈ r.selectors, isGlobal t = false := by simp [IsWanted]
  rw [withoutGlobal?_eq]
  unfold prepared?
  simp only [hused]
  split
  · cases wrapper with
    | none => simp
    | some w => rfl
  · rfl

end Rule

namespace Sheet

/-- The sheet cut down to what a fragment uses, if that is asked for. -/
def concerning (used : Option Markup.SelectorSet) (sheet : Sheet) : Sheet :=
  match used with
  | some used => if used.isEmpty then sheet else relevantTo used sheet
  | none => sheet

theorem prepare_eq (used : Option Markup.SelectorSet) (wrapper : Option Text) (sheet : Sheet) :
    sheet.prepare used wrapper = wrapper.elim (sheet.concerning used).withoutGlobal
      (scopeTo · (sheet.concerning used).withoutGlobal) := by
  cases wrapper <;> rfl

/-- Behind the first pass the other two make of the leaves what `Rule.prepared?` says. -/
theorem leaves_concerning (used : Option Markup.SelectorSet) (wrapper : Option Text) (sheet : Sheet) :
    (sheet.concerning used).leaves.filterMap (Leaf.change? (Rule.prepared? none wrapper))
      = sheet.leaves.filterMap (Leaf.change? (Rule.prepared? used wrapper)) := by
  have hwanted {r : Rule} {set : Markup.SelectorSet} : r.IsWanted (some set) ↔ r.IsWanted none
      ∧ (set.isEmpty = false → ∃ t ∈ r.selectors, isRelevant set t = true) := by simp [Rule.IsWanted]
  unfold concerning
  cases used with
  | none => rfl
  | some set =>
    cases hempty : set.isEmpty with
    | true =>
      have hsame : Rule.prepared? (some set) wrapper = Rule.prepared? none wrapper := by
        funext r
        simp [Rule.prepared?, hwanted, hempty]
      simp [hsame, hempty]
    | false =>
      have hrelevant : (relevantTo set sheet).leaves
          = sheet.leaves.filterMap (Leaf.change? (Rule.relevant? set)) :=
        leavesUnder_filterMapRules _ [] sheet
      have hboth (r : Rule) : (r.relevant? set).bind (Rule.prepared? none wrapper)
          = Rule.prepared? (some set) wrapper r := by
        by_cases h : ∃ t ∈ r.selectors, isRelevant set t = true
        · simp [Rule.relevant?, Rule.prepared?, hwanted, h]
        · simp [Rule.relevant?, Rule.prepared?, hwanted, h, hempty]
      simp only [hempty, Bool.false_eq_true, if_false, hrelevant, Leaf.filterMap_change?, hboth]

/-- What is left of a sheet that is prepared for a widget: its leaves in order, the pieces that are kept
as they were written, and of each rule what `Rule.prepared?` says, under the conditions that they stood
under.  No group is left empty.  The text of a widget's sheet is what is left of the sheet that was
read. -/
theorem leaves_prepare (used : Option Markup.SelectorSet) (wrapper : Option Text) (sheet : Sheet) :
    (sheet.prepare used wrapper).leaves
        = sheet.leaves.filterMap (Leaf.change? (Rule.prepared? used wrapper))
      ∧ Filled (sheet.prepare used wrapper)
      ∧ ∀ css, Style.prepare used wrapper css = trimEnd ((parse css).prepare used wrapper).render := by
  have hstripped : (sheet.concerning used).withoutGlobal.leaves
      = (sheet.concerning used).leaves.filterMap (Leaf.change? Rule.withoutGlobal?) :=
    leavesUnder_filterMapRules _ [] _
  refine ⟨?_, ?_, fun css => ?_⟩
  · have hscoped : (sheet.prepare used wrapper).leaves
        = (sheet.concerning used).withoutGlobal.leaves.filterMap
          (Leaf.change? fun r => some (wrapper.elim r (Rule.scopeTo · r))) := by
      rw [prepare_eq]
      cases wrapper with
      | none => simp
      | some w => exact leavesUnder_mapRules _ [] _
    rw [hscoped, hstripped, Leaf.filterMap_change?]
    simp only [Rule.withoutGlobal?_bind]
    exact leaves_concerning used wrapper sheet
  · rw [prepare_eq]
    cases wrapper with
    | none => exact filled_filterMapRules _ _
    | some w => exact (filled_filterMapRules _ _).mapRules _
  · unfold Style.prepare
    split
    · next hblank =>
      have hconcerning : concerning used [] = [] := by
        cases used <;> simp [concerning, relevantTo, filterMapRules]
      have hnil : (prepare used wrapper []).render = [] := by
        rw [prepare_eq, hconcerning, withoutGlobal, filterMapRules]
        cases wrapper <;> simp [scopeTo, mapRules, render, renderLines, joinLines]
      rw [parse_of_allBlank hblank, hnil]
      rfl
    · rfl

end Sheet

end WidgetCompiler.Style
