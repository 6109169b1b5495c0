import WidgetCompiler.Proofs.Style.Conservation
import WidgetCompiler.Proofs.Style.Stripping

/-!
# Sheets that are put below a wrapper twice

On the nodes of a sheet `scopeTo` is idempotent (`Sheet.scopeTo_scopeTo`), and so it is on a clear sheet
as text if the wrapper is a clear selector.  Below the placeholder it is not: where one is put before a
selector, its braces are read as the block of a rule that ends the list there (`Rule.torn`), so the
sheet that is read has a rule for each placeholder, and the selectors before it lose their declarations.
A second run puts the selectors below the wrapper once more, and each of them has two opening braces
more than before (`count_scopeTo`), so nothing but a sheet that has no selector to be put below the
wrapper stays as it is (`scopeTo_twice`).
-/

namespace WidgetCompiler.Style

open Text

variable {s t inner indent gap css wrapper : Text} {ts before : List Text} {r : Rule} {ns : List Node}

/-! ## Selectors -/

theorem contains_append_left (mark u : Text) : contains (mark ++ u) mark = true := by
  have hafter : after? mark (mark ++ u) = some u := after?_eq_some.2 rfl
  cases mark with
  | nil => cases u <;> rfl
  | cons m mark =>
    rw [List.cons_append] at hafter ⊢
    rw [contains, cut?, hafter]
    rfl

/-- A selector that has the wrapper stays as it is. -/
theorem scope_of_contains (h : contains t wrapper = true) : scope wrapper t = t := by
  rw [scope, if_pos]
  rw [h, Bool.true_or]

theorem scope_eq_below (h : scope wrapper t ≠ t) : scope wrapper t = wrapper ++ ' ' :: t := by
  rw [scope] at h ⊢
  split
  · next hstays => exact absurd (if_pos hstays) h
  · rfl

@[simp] theorem scope_scope (wrapper t : Text) :
    scope wrapper (scope wrapper t) = scope wrapper t := by
  by_cases h : scope wrapper t = t
  · rw [h, h]
  · rw [scope_eq_below h]
    exact scope_of_contains (contains_append_left wrapper _)

theorem enclosed_scope (hw : Enclosed wrapper) (ht : Enclosed t) : Enclosed (scope wrapper t) := by
  have hspace : Enclosed [' '] := rfl
  by_cases h : scope wrapper t = t
  · rwa [h]
  · rw [scope_eq_below h]
    exact hw.append (hspace.append ht)

theorem isRead_scope (hw : IsRead wrapper) (ht : IsRead t) : IsRead (scope wrapper t) := by
  by_cases h : scope wrapper t = t
  · rwa [h]
  · rw [scope_eq_below h]
    exact isRead_below hw ht

/-! ## Nodes -/

namespace Sheet

variable {f g : Rule → List Node}

theorem rules_append (ns ms : List Node) : rules (ns ++ ms) = rules ns ++ rules ms := by
  induction ns with
  | nil => simp [rules]
  | cons n ns ih => cases n <;> simp [rules, ih]

theorem mapRules_congr {f g : Rule → Rule} (h : ∀ r ∈ rules ns, f r = g r) :
    mapRules f ns = mapRules g ns := by
  fun_induction mapRules f ns <;> simp_all [mapRules, rules, or_imp, forall_and]

theorem mapRules_mapRules (f g : Rule → Rule) (ns : List Node) :
    mapRules g (mapRules f ns) = mapRules (g ∘ f) ns := by
  fun_induction mapRules f ns <;> simp_all [mapRules]

theorem mapRules_id (ns : List Node) : mapRules id ns = ns := by
  fun_induction mapRules id ns <;> simp_all

/-- The sheet with each rule exchanged for the nodes that `f` makes of it. -/
def flatMapRules (f : Rule → List Node) : List Node → List Node
  | [] => []
  | .rule r :: ns => f r ++ flatMapRules f ns
  | .group condition children :: ns =>
    .group condition (flatMapRules f children) :: flatMapRules f ns
  | .raw t :: ns => .raw t :: flatMapRules f ns

theorem flatMapRules_singleton (f : Rule → Rule) (ns : List Node) :
    flatMapRules (fun r => [.rule (f r)]) ns = mapRules f ns := by
  fun_induction mapRules f ns <;> simp_all [flatMapRules]

theorem flatMapRules_congr (h : ∀ r ∈ rules ns, f r = g r) :
    flatMapRules f ns = flatMapRules g ns := by
  fun_induction flatMapRules f ns <;> simp_all [flatMapRules, rules, or_imp, forall_and]

theorem rules_flatMapRules (f : Rule → List Node) (ns : List Node) :
    rules (flatMapRules f ns) = (rules ns).flatMap fun r => rules (f r) := by
  fun_induction flatMapRules f ns <;> simp_all [rules, rules_append]

/-- The selectors of all rules of a sheet, in order. -/
def allSelectors (sheet : Sheet) : List Text := (rules sheet).flatMap Rule.selectors

theorem scopeTo_scopeTo (wrapper : Text) (sheet : Sheet) :
    (sheet.scopeTo wrapper).scopeTo wrapper = sheet.scopeTo wrapper := by
  rw [scopeTo, scopeTo, mapRules_mapRules]
  refine mapRules_congr fun r _ => ?_
  simp [Rule.scopeTo, Function.comp_def]

end Sheet

open Sheet

/-! ## Lists of selectors that were read -/

/-- A list of selectors is read as it stands behind others. -/
theorem yields_list (hs : Carries s before) (hne : ts ≠ []) (h : ∀ t ∈ ts, IsRead t)
    (hinner : Whole inner) :
    Yields (s ++ join ", " ts ++ [' '] ++ '\x7b' :: (inner ++ ['\x7d']))
      [.rule ⟨before ++ ts, oneLine inner⟩] := by
  fun_induction join ", " ts generalizing s before with
  | case1 => exact absurd rfl hne
  | case2 t => exact hs.last (h t (by simp)) hinner
  | case3 t u ts ih =>
    have ht : IsRead t := h t (by simp)
    have hlist := ih (hs.append (.selector ht)) (by simp) fun v hv => h v (List.mem_cons_of_mem _ hv)
    simpa using hlist

/-- What is read of a list of selectors that are put below the placeholder, behind others: a placeholder
ends the list before it, with a block of its own. -/
def tear (declarations : Text) (before : List Text) : List Text → List Node
  | [] => [.rule ⟨before, declarations⟩]
  | t :: ts =>
    if scope wrapperPlaceholder t = t then tear declarations (before ++ [t]) ts
    else .rule ⟨before, "\x7bWRAPPER\x7d"⟩ :: tear declarations [t] ts

/-- What is read of a rule that is put below the placeholder. -/
def Rule.torn (r : Rule) : List Node := tear r.declarations [] r.selectors

theorem tear_of_scope_eq (declarations : Text) (h : ∀ t ∈ ts, scope wrapperPlaceholder t = t) :
    tear declarations before ts = [.rule ⟨before ++ ts, declarations⟩] := by
  induction ts generalizing before with
  | nil => rw [tear, List.append_nil]
  | cons t ts ih =>
    have hrest : ∀ u ∈ ts, scope wrapperPlaceholder u = u := fun u hu => h u (List.mem_cons_of_mem _ hu)
    rw [tear, if_pos (h t List.mem_cons_self), ih hrest, List.append_assoc, List.singleton_append]

/-- No selector is lost. -/
theorem allSelectors_tear (declarations : Text) (before ts : List Text) :
    allSelectors (tear declarations before ts) = before ++ ts := by
  fun_induction tear declarations before ts with
  | case1 => simp [allSelectors, rules]
  | case2 before t ts _ ih => rw [ih, List.append_assoc, List.singleton_append]
  | case3 before t ts _ ih =>
    rw [allSelectors] at ih ⊢
    rw [rules, List.flatMap_cons, ih, List.singleton_append]

theorem yields_tear (hs : Carries s before) (hne : ts ≠ []) (h : ∀ t ∈ ts, IsRead t)
    (hinner : Whole inner) :
    Yields (s ++ join ", " (ts.map (scope wrapperPlaceholder)) ++ [' ']
      ++ '\x7b' :: (inner ++ ['\x7d'])) (tear (oneLine inner) before ts) := by
  have hspace : Carries [' '] [] := .blanks rfl
  induction ts generalizing s before with
  | nil => exact absurd rfl hne
  | cons t ts ih =>
    have ht : IsRead t := h t (by simp)
    have hrest : ∀ u ∈ ts, IsRead u := fun u hu => h u (List.mem_cons_of_mem _ hu)
    by_cases hscope : scope wrapperPlaceholder t = t
    · rw [tear, if_pos hscope, List.map_cons, hscope]
      cases ts with
      | nil => exact hs.last ht hinner
      | cons u ts =>
        have hlist := ih (hs.append (.selector ht)) (by simp) hrest
        simpa [join] using hlist
    · rw [tear, if_neg hscope, List.map_cons, scope_eq_below hscope]
      cases ts with
      | nil =>
        have hlist := hs.placeholder.append (hspace.last ht hinner)
        simpa [join, tear] using hlist
      | cons u ts =>
        have hlist := hs.placeholder.append (ih (hspace.append (.selector ht)) (by simp) hrest)
        simpa [join] using hlist

/-! ## Rules -/

/-- A rule without selectors is read as one. -/
theorem yields_without_selectors (hinner : Whole inner) :
    Yields ([' '] ++ '\x7b' :: (inner ++ ['\x7d'])) [.rule ⟨[], oneLine inner⟩] := by
  have hempty : splitSelectors [' '] = [] := by decide
  have hread : Yields ([' '] ++ '\x7b' :: (inner ++ ['\x7d']))
      [.rule ⟨splitSelectors [' '], oneLine inner⟩] := .rule (by decide) (by decide) hinner
  rwa [hempty] at hread

namespace Rule.Kept

theorem whole_scopeTo (h : r.Kept) (hw : Enclosed wrapper) : Whole (r.scopeTo wrapper).render := by
  refine whole_of_selectors h.declarations fun t ht => ?_
  obtain ⟨u, hu, rfl⟩ := List.mem_map.1 ht
  exact enclosed_scope hw (h.clear u hu).block

/-- Below a clear selector a rule is read as it stands. -/
theorem yields_scopeTo (h : r.Kept) (hw : IsRead wrapper) :
    Yields (r.scopeTo wrapper).render [.rule (r.scopeTo wrapper)] := by
  have hinner : Whole r.inner := (enclosed_inner h.declarations).whole
  have hstart : Carries [] [] := .blanks rfl
  have hread : ∀ t ∈ r.selectors.map (scope wrapper), IsRead t := by
    intro t ht
    obtain ⟨u, hu, rfl⟩ := List.mem_map.1 ht
    exact isRead_scope hw (h.isRead hu)
  have hrule : Yields (join ", " (r.selectors.map (scope wrapper)) ++ [' ']
      ++ '\x7b' :: (r.inner ++ ['\x7d']))
      [.rule ⟨r.selectors.map (scope wrapper), oneLine r.inner⟩] := by
    by_cases hnone : r.selectors = []
    · rw [hnone]
      exact yields_without_selectors hinner
    · exact yields_list hstart (by simpa using hnone) hread hinner
  rw [h.line] at hrule
  rw [Rule.render_eq]
  exact hrule

/-- Below the placeholder it is torn. -/
theorem yields_torn (h : r.Kept) : Yields (r.scopeTo wrapperPlaceholder).render r.torn := by
  have hinner : Whole r.inner := (enclosed_inner h.declarations).whole
  have hstart : Carries [] [] := .blanks rfl
  have hrule : Yields (join ", " (r.selectors.map (scope wrapperPlaceholder)) ++ [' ']
      ++ '\x7b' :: (r.inner ++ ['\x7d'])) (tear (oneLine r.inner) [] r.selectors) := by
    by_cases hnone : r.selectors = []
    · rw [hnone]
      exact yields_without_selectors hinner
    · exact yields_tear hstart hnone (fun t ht => h.isRead ht) hinner
  rw [h.line] at hrule
  rw [Rule.render_eq]
  exact hrule

end Rule.Kept

/-! ## Sheets -/

/-- What is written of a sheet that is read as it stands, with other rules, is read rule by rule. -/
theorem Sheet.Stable.parse_mapRules {f : Rule → Rule} {g : Rule → List Node}
    (hread : ∀ r : Rule, r.Kept → Yields (f r).render (g r))
    (hwhole : ∀ r : Rule, r.Kept → Whole (f r).render) (h : Stable ns)
    (hindent : ∀ c ∈ indent, isAsciiBlank c = true) (hgap : ∀ c ∈ gap, isAsciiBlank c = true) :
    parse (joinLines (renderLines indent (mapRules f ns)) ++ gap) = flatMapRules g ns := by
  have hfeed : Yields ['\n'] [] := .blanks (by decide)
  have hnext (s : Text) : parse ('\n' :: s) = parse s := hfeed s
  have hblank {gap : Text} (h : ∀ c ∈ gap, isAsciiBlank c = true) : allBlank gap = true :=
    List.all_eq_true.2 fun c hc => isBlank_of_isAsciiBlank (h c hc)
  induction h generalizing indent gap with
  | nil =>
    rw [mapRules, renderLines, joinLines, List.nil_append, parse_of_allBlank (hblank hgap),
      flatMapRules]
  | @rule r ns hr _ ih =>
    rw [mapRules, renderLines, joinLines, List.append_assoc, List.append_assoc, parse_gap hindent,
      hread r hr, List.cons_append, hnext, ih hindent hgap, flatMapRules]
  | @group condition children ns hcondition hchildren hstable _ ihc ih =>
    have hdeeper := isAsciiBlank_deeper hindent
    have hlaid : Laid (fun r => Whole r.render) (mapRules f children) := hstable.laid.mapRules hwhole
    have hbody := whole_groupBody hindent
      (hlaid.whole (fun _ hr => hr) (fun t ht => hchildren t (Laid.mem_of_mem_mapRules ht)) hdeeper)
    have hinner : parse (groupBody indent (mapRules f children)) = flatMapRules g children := by
      rw [groupBody, List.cons_append, hnext, ihc hdeeper hindent]
    rw [mapRules, joinLines_renderLines_group, List.append_assoc, List.append_assoc, parse_gap hindent,
      hcondition.yields hbody, hinner, List.singleton_append, List.cons_append, hnext, ih hindent hgap,
      flatMapRules]
  | raw ht _ ih =>
    rw [mapRules, renderLines, joinLines, List.append_assoc, List.append_assoc, parse_gap hindent, ht,
      List.singleton_append, List.cons_append, hnext, ih hindent hgap, flatMapRules]
  | @unfinished t ht =>
    rw [mapRules, mapRules, renderLines, joinLines, renderLines, joinLines, List.append_assoc,
      List.append_assoc, parse_gap hindent, flatMapRules, flatMapRules]
    refine ht _ ?_
    simpa [isBlank] using hblank hgap

/-- Reading a clear sheet that was put below a clear selector. -/
theorem parse_scopeTo (h : Clear (parse css)) (hw : IsRead wrapper) :
    parse (scopeTo wrapper css) = (parse css).scopeTo wrapper := by
  have hread := (stable_parse h).parse_mapRules (fun r hr => hr.yields_scopeTo hw)
    (fun r hr => hr.whole_scopeTo hw.block) (List.forall_mem_nil _) (List.forall_mem_nil _)
  rwa [List.append_nil, flatMapRules_singleton] at hread

/-- Reading a clear sheet that was put below the placeholder. -/
theorem parse_scopeTo_placeholder (h : Clear (parse css)) :
    parse (scopeTo wrapperPlaceholder css) = flatMapRules Rule.torn (parse css) := by
  have hplaceholder : Enclosed wrapperPlaceholder := by decide
  have hread := (stable_parse h).parse_mapRules (fun r hr => hr.yields_torn)
    (fun r hr => hr.whole_scopeTo hplaceholder) (List.forall_mem_nil _) (List.forall_mem_nil _)
  rwa [List.append_nil] at hread

theorem allSelectors_flatMapRules_torn (ns : List Node) :
    allSelectors (flatMapRules Rule.torn ns) = allSelectors ns := by
  rw [allSelectors, rules_flatMapRules, List.flatMap_assoc, allSelectors]
  refine congrArg (List.flatMap · (rules ns)) (funext fun r => ?_)
  exact (allSelectors_tear r.declarations [] r.selectors).trans (List.nil_append _)

/-! ## Braces -/

/-- How many selectors are put below the placeholder. -/
def belowCount (ts : List Text) : Nat := ts.countP fun t => scope wrapperPlaceholder t ≠ t

theorem count_flatMap_scope (ts : List Text) :
    ((ts.map (scope wrapperPlaceholder)).flatMap ink).count '\x7b'
      = (ts.flatMap ink).count '\x7b' + 2 * belowCount ts := by
  have hfront : (ink (wrapperPlaceholder ++ [' '])).count '\x7b' = 2 := by decide
  induction ts with
  | nil => rfl
  | cons t ts ih =>
    rw [List.map_cons, List.flatMap_cons, List.flatMap_cons, List.count_append, List.count_append, ih,
      belowCount, belowCount, List.countP_cons]
    by_cases h : scope wrapperPlaceholder t = t
    · rw [h]
      simp
      omega
    · have hbelow : (ink (scope wrapperPlaceholder t)).count '\x7b' = 2 + (ink t).count '\x7b' := by
        rw [scope_eq_below h, ← List.singleton_append, ← List.append_assoc, ink_append,
          List.count_append, hfront]
      rw [hbelow]
      simp [h]
      omega

/-- Each selector that is put below the placeholder brings two braces. -/
theorem count_ink_scopeTo (ns : List Node) :
    (Sheet.ink (Sheet.scopeTo wrapperPlaceholder ns)).count '\x7b'
      = (Sheet.ink ns).count '\x7b' + 2 * belowCount (allSelectors ns) := by
  rw [Sheet.scopeTo]
  fun_induction mapRules (Rule.scopeTo wrapperPlaceholder) ns with
  | case1 => simp [allSelectors, rules, belowCount]
  | case2 r ns ih =>
    have hrule := count_flatMap_scope r.selectors
    simp only [Sheet.ink, Rule.scopeTo, List.count_append, allSelectors, rules, List.flatMap_cons,
      belowCount, List.countP_append] at hrule ih ⊢
    omega
  | case3 condition children ns ihc ih =>
    simp only [Sheet.ink, List.count_append, List.count_cons, allSelectors, rules, List.flatMap_append,
      belowCount, List.countP_append] at ihc ih ⊢
    omega
  | case4 t ns ih =>
    simp only [Sheet.ink, List.count_append, allSelectors, rules] at ih ⊢
    omega

/-- Whatever the sheet, putting it below the placeholder brings two braces for each selector that has
neither the placeholder nor a pseudo-class at its head. -/
theorem count_scopeTo (css : Text) :
    (ink (scopeTo wrapperPlaceholder css)).count '\x7b'
      = (ink css).count '\x7b' + 2 * belowCount (allSelectors (parse css)) := by
  rw [scopeTo, ink_render, count_ink_scopeTo, ink_parse]

/-- A sheet that stays as it is below the placeholder has no selector to be put there. -/
theorem scope_eq_of_scopeTo_eq (h : scopeTo wrapperPlaceholder css = css) :
    ∀ t ∈ allSelectors (parse css), scope wrapperPlaceholder t = t := by
  have hcount := count_scopeTo css
  rw [h] at hcount
  have hnone : belowCount (allSelectors (parse css)) = 0 := by omega
  simpa [belowCount] using hnone

/-! ## Twice -/

/-- On nodes a second run changes nothing.  On the text of a clear sheet it changes nothing below a
clear selector.  Below the placeholder the first run leaves each selector in the sheet, but each rule
torn, and a second run changes nothing if and only if the first has put no selector below it. -/
theorem scopeTo_twice {css : Text} (h : Clear (parse css)) :
    (∀ (wrapper : Text) (sheet : Sheet),
        (sheet.scopeTo wrapper).scopeTo wrapper = sheet.scopeTo wrapper)
      ∧ (∀ wrapper : Text, IsRead wrapper →
        scopeTo wrapper (scopeTo wrapper css) = scopeTo wrapper css)
      ∧ parse (scopeTo wrapperPlaceholder css) = flatMapRules Rule.torn (parse css)
      ∧ allSelectors (parse (scopeTo wrapperPlaceholder css)) = allSelectors (parse css)
      ∧ (scopeTo wrapperPlaceholder (scopeTo wrapperPlaceholder css) = scopeTo wrapperPlaceholder css
        ↔ ∀ t ∈ allSelectors (parse css), scope wrapperPlaceholder t = t) := by
  have htorn := parse_scopeTo_placeholder h
  have hselectors : allSelectors (parse (scopeTo wrapperPlaceholder css)) = allSelectors (parse css) := by
    rw [htorn, allSelectors_flatMapRules_torn]
  refine ⟨Sheet.scopeTo_scopeTo, fun wrapper hw => ?_, htorn, hselectors, fun hfixed => ?_,
    fun hnone => ?_⟩
  · rw [scopeTo, parse_scopeTo h hw, Sheet.scopeTo_scopeTo, scopeTo]
  · have hstay := scope_eq_of_scopeTo_eq hfixed
    rwa [hselectors] at hstay
  · have hwhole : flatMapRules Rule.torn (parse css) = parse css := by
      have hrules : ∀ r ∈ rules (parse css), r.torn = [.rule (id r)] := fun r hr =>
        tear_of_scope_eq r.declarations fun t ht => hnone t (List.mem_flatMap.2 ⟨r, hr, ht⟩)
      rw [flatMapRules_congr hrules, flatMapRules_singleton, mapRules_id]
    rw [scopeTo, htorn, hwhole, scopeTo]

/-- A sheet with a group in which the wrapper's placeholder stands in parentheses, where a reader passes
over it. -/
def nestedCss : Text :=
  "@media print \x7b:root, .a:is(\x7b\x7bWRAPPER\x7d\x7d *), .b, .c \x7bcolor: red;\x7d\x7d"

/-- The rule that its group holds. -/
def nestedRule : Rule :=
  ⟨[":root", ".a:is(\x7b\x7bWRAPPER\x7d\x7d *)", ".b", ".c"], "color: red;"⟩

theorem parse_nestedCss : parse nestedCss = [.group "@media print" [.rule nestedRule]] := by
  have hrule : Yields (":root, .a:is(\x7b\x7bWRAPPER\x7d\x7d *), .b, .c "
      ++ '\x7b' :: ("color: red;" ++ ['\x7d'])) [.rule nestedRule] := by
    have hselectors : splitSelectors ":root, .a:is(\x7b\x7bWRAPPER\x7d\x7d *), .b, .c "
        = nestedRule.selectors := by decide
    have hline : oneLine "color: red;" = nestedRule.declarations := by decide
    have hread : Yields (":root, .a:is(\x7b\x7bWRAPPER\x7d\x7d *), .b, .c "
        ++ '\x7b' :: ("color: red;" ++ ['\x7d']))
        [.rule ⟨splitSelectors ":root, .a:is(\x7b\x7bWRAPPER\x7d\x7d *), .b, .c ", oneLine "color: red;"⟩] :=
      .rule (by decide) (by decide) (.of_not_mem (by decide))
    rwa [hselectors, hline] at hread
  have hcondition : Heads "@media print" :=
    ⟨by decide, by decide, ⟨"media print", by decide, by decide⟩, by decide⟩
  have hinner : Enclosed ":root, .a:is(\x7b\x7bWRAPPER\x7d\x7d *), .b, .c \x7bcolor: red;\x7d" := by
    decide
  have hgroup := hcondition.yields hinner.whole []
  have hchildren := hrule []
  rw [parse_nil, List.append_nil, List.append_nil] at hchildren
  rw [parse_nil, List.append_nil, List.append_nil] at hgroup
  refine hgroup.trans ?_
  exact congrArg (fun children => [Node.group "@media print" children]) hchildren

/-- Each placeholder in the group is read as a block, and a second run puts the selectors below it once
more; below a class nothing happens to them. -/
theorem scopeTo_twice_nested : Clear (parse nestedCss)
    ∧ parse (scopeTo wrapperPlaceholder nestedCss) = [.group "@media print"
      [.rule ⟨[":root", ".a:is(\x7b\x7bWRAPPER\x7d\x7d *)"], "\x7bWRAPPER\x7d"⟩,
        .rule ⟨[".b"], "\x7bWRAPPER\x7d"⟩, .rule ⟨[".c"], "color: red;"⟩]]
    ∧ scopeTo wrapperPlaceholder (scopeTo wrapperPlaceholder nestedCss)
      ≠ scopeTo wrapperPlaceholder nestedCss
    ∧ scopeTo ".w" (scopeTo ".w" nestedCss) = scopeTo ".w" nestedCss := by
  have hclear : Clear (parse nestedCss) := by
    have hselectors : ∀ t ∈ nestedRule.selectors, IsClear t := by
      have hroot : IsClear ":root" := ⟨by decide, by decide, by decide, by decide⟩
      have ha : IsClear ".a:is(\x7b\x7bWRAPPER\x7d\x7d *)" :=
        ⟨by decide, by decide, by decide, by decide⟩
      have hb : IsClear ".b" := ⟨by decide, by decide, by decide, by decide⟩
      have hc : IsClear ".c" := ⟨by decide, by decide, by decide, by decide⟩
      exact List.forall_mem_cons.2 ⟨hroot, List.forall_mem_cons.2 ⟨ha, List.forall_mem_cons.2
        ⟨hb, List.forall_mem_singleton.2 hc⟩⟩⟩
    rw [parse_nestedCss]
    exact .group (by decide) (by simp) (.rule hselectors .nil) .nil
  have hclass : IsRead ".w" := by
    refine ⟨⟨?_, ?_, ?_, ?_⟩, ?_, ?_⟩
    all_goals decide
  have hb : scope wrapperPlaceholder ".b" ≠ ".b" := by decide +kernel
  have htorn : nestedRule.torn = [.rule ⟨[":root", ".a:is(\x7b\x7bWRAPPER\x7d\x7d *)"], "\x7bWRAPPER\x7d"⟩,
      .rule ⟨[".b"], "\x7bWRAPPER\x7d"⟩, .rule ⟨[".c"], "color: red;"⟩] := by
    have hroot : scope wrapperPlaceholder ":root" = ":root" := by decide +kernel
    have ha : scope wrapperPlaceholder ".a:is(\x7b\x7bWRAPPER\x7d\x7d *)"
        = ".a:is(\x7b\x7bWRAPPER\x7d\x7d *)" := by decide +kernel
    have hc : scope wrapperPlaceholder ".c" ≠ ".c" := by decide +kernel
    rw [Rule.torn, nestedRule, tear, if_pos hroot, tear, if_pos ha, tear, if_neg hb, tear, if_neg hc,
      tear]
    rfl
  obtain ⟨-, hidempotent, hread, -, htwice⟩ := scopeTo_twice hclear
  refine ⟨hclear, ?_, fun hfixed => ?_, hidempotent ".w" hclass⟩
  · rw [hread, parse_nestedCss, flatMapRules, flatMapRules, flatMapRules, flatMapRules, htorn]
    rfl
  · have hmem : (".b" : Text) ∈ allSelectors (parse nestedCss) := by
      rw [parse_nestedCss]
      simp [allSelectors, rules, nestedRule]
    exact hb (htwice.1 hfixed ".b" hmem)

/-- A rule for a class is put below the placeholder, and is torn by a second run, which has a rule
without selectors before it. -/
theorem scopeTo_twice_ne :
    scopeTo wrapperPlaceholder ".a \x7b color: red; \x7d"
        = "\x7b\x7bWRAPPER\x7d\x7d .a \x7b color: red; \x7d\n"
      ∧ scopeTo wrapperPlaceholder "\x7b\x7bWRAPPER\x7d\x7d .a \x7b color: red; \x7d\n"
        = " \x7b \x7bWRAPPER\x7d \x7d\n\x7b\x7bWRAPPER\x7d\x7d .a \x7b color: red; \x7d\n"
      ∧ ¬ ∀ css : Text, scopeTo wrapperPlaceholder (scopeTo wrapperPlaceholder css)
        = scopeTo wrapperPlaceholder css := by
  have hparse : parse ".a \x7b color: red; \x7d" = [.rule ⟨[".a"], "color: red;"⟩] := by
    have hlist : splitSelectors ".a " = [(".a" : Text)] := by decide +kernel
    have hline : oneLine " color: red; " = ("color: red;" : Text) := by decide +kernel
    have hrule : Yields (".a " ++ '\x7b' :: (" color: red; " ++ ['\x7d']))
        [.rule ⟨splitSelectors ".a ", oneLine " color: red; "⟩] :=
      .rule (by decide) (by decide +kernel) (.of_not_mem (by decide))
    have hread := hrule []
    rw [hlist, hline, parse_nil, List.append_nil, List.append_nil] at hread
    exact hread
  have hclear : Clear (parse ".a \x7b color: red; \x7d") := by
    have ha : IsClear ".a" := ⟨by decide, by decide, by decide, by decide⟩
    rw [hparse]
    exact .rule (List.forall_mem_singleton.2 ha) .nil
  have honce : scopeTo wrapperPlaceholder ".a \x7b color: red; \x7d"
      = "\x7b\x7bWRAPPER\x7d\x7d .a \x7b color: red; \x7d\n" := by
    rw [scopeTo, hparse, Sheet.scopeTo, mapRules, mapRules, Sheet.render, renderLines, renderLines]
    decide +kernel
  have htwice : scopeTo wrapperPlaceholder "\x7b\x7bWRAPPER\x7d\x7d .a \x7b color: red; \x7d\n"
      = " \x7b \x7bWRAPPER\x7d \x7d\n\x7b\x7bWRAPPER\x7d\x7d .a \x7b color: red; \x7d\n" := by
    have htorn : Rule.torn ⟨[".a"], "color: red;"⟩
        = [.rule ⟨[], "\x7bWRAPPER\x7d"⟩, .rule ⟨[".a"], "color: red;"⟩] := by
      have ha : scope wrapperPlaceholder ".a" ≠ ".a" := by decide +kernel
      rw [Rule.torn, tear, if_neg ha, tear]
    rw [← honce, scopeTo, parse_scopeTo_placeholder hclear, hparse, flatMapRules, flatMapRules, htorn,
      Sheet.scopeTo, List.append_nil, mapRules, mapRules, mapRules, Sheet.render, renderLines,
      renderLines, renderLines]
    decide +kernel
  refine ⟨honce, htwice, fun hall => ?_⟩
  have hfixed := hall ".a \x7b color: red; \x7d"
  rw [honce, htwice] at hfixed
  exact absurd hfixed (by decide)

end WidgetCompiler.Style
