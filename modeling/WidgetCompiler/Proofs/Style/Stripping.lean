import WidgetCompiler.Proofs.Style.Silence

/-!
# Sheets without selectors of the page

`stripGlobal` takes the selectors of the page as a whole out of the nodes of a sheet, and the result is
text again.  Reading that text finds none of them if each selector of the sheet reads the same wherever
it stands, and each verbatim piece as the piece it is (`Sheet.Clear`): then what is left of a list of
selectors begins no comment and no at-rule, and takes nothing of the text behind it
(`findGlobal_stripGlobal`).  A comment in front of a selector does not: without the selectors before it
the comment is a node of its own, and the selector behind it is one of the page
(`findGlobal_stripGlobal_comment`).
-/

namespace WidgetCompiler.Style

open Text

variable {c : Char} {s t u gap prelude body inner rest condition : Text} {stop : PreludeEnd}
  {r : Rule} {ns children : List Node}

open Sheet

/-! ## Clear sheets -/

/-- A verbatim piece that is a comment or begins none. -/
def IsClearPiece (t : Text) : Prop :=
  (∀ c ∈ t.head?, c ∉ ("\x7d/" : Text)) ∨ ∃ u, t = "/*" ++ u ++ "*/" ∧ Lacks "*/" u

/-- All selectors and pieces of a sheet read as what they are, and those in a group stay in it. -/
inductive Sheet.Clear : List Node → Prop
  | nil : Clear []
  | rule {r : Rule} {ns : List Node} : (∀ t ∈ r.selectors, IsClear t) → Clear ns →
      Clear (.rule r :: ns)
  | group {condition : Text} {children ns : List Node} : Enclosed condition →
      (∀ t, .raw t ∈ children → Enclosed t) → Clear children → Clear ns →
      Clear (.group condition children :: ns)
  | raw {t : Text} {ns : List Node} : IsClearPiece t → Clear ns → Clear (.raw t :: ns)

/-- A rule that was read, with clear selectors. -/
structure Rule.Kept (r : Rule) : Prop where
  clear : ∀ t ∈ r.selectors, IsClear t
  trimmed : ∀ t ∈ r.selectors, trim t = t ∧ t ≠ []
  declarations : Enclosed (r.declarations ++ [' '])
  line : oneLine r.inner = r.declarations

theorem Rule.Kept.isRead (h : r.Kept) (ht : t ∈ r.selectors) : IsRead t :=
  ⟨h.clear t ht, (h.trimmed t ht).1, (h.trimmed t ht).2⟩

theorem Rule.Kept.withoutGlobal? {r' : Rule} (h : r.Kept) (hr : r.withoutGlobal? = some r') :
    r'.Calm := by
  unfold Rule.withoutGlobal? at hr
  split at hr
  · simp at hr
  · next hne =>
    obtain rfl := Option.some.inj hr
    refine ⟨hne, fun t ht => ?_, h.declarations⟩
    obtain ⟨hmem, hglobal⟩ := List.mem_filter.1 ht
    exact ⟨h.clear t hmem, (h.trimmed t hmem).1, (h.trimmed t hmem).2, by simpa using hglobal⟩

/-! ## Clear sheets are written in silence -/

/-- A prelude means the same trimmed. -/
theorem run_trim_prelude (h : preludes.run (.plain 0) prelude = some (.plain 0)) :
    preludes.run (.plain 0) (trim prelude) = some (.plain 0) := by
  have hspace : preludes.run (.plain 0) (trim prelude ++ [' ']) = some (.plain 0) := by
    rw [Scanner.run_trim rfl rfl (by simp), Scanner.run_append_of_run h]
    decide
  rw [Scanner.run_append] at hspace
  obtain ⟨m, hrun, hm⟩ := Option.bind_eq_some_iff.1 hspace
  rw [hrun]
  rw [Scanner.run_gap_of_ne_nil rfl (by simp)] at hm
  cases m with
  | plain n => exact hm
  | quoted q n => simp [preludes, PreludeMode.settle] at hm
  | escaped q n => simp [preludes, PreludeMode.settle] at hm

theorem yields_statement (hrun : preludes.run (.plain 0) prelude = some (.plain 0))
    (h : IsClearPiece (trim prelude ++ [';'])) :
    Yields (trim prelude ++ [';']) [.raw (trim prelude ++ [';'])] := by
  rcases h with h | ⟨u, hu, hlacks⟩
  · exact .statement (run_trim_prelude hrun) (trim_trim prelude) h
  · rw [hu]
    exact .comment hlacks

/-- A block that holds no rules is read as one again. -/
theorem yields_block (hrun : preludes.run (.plain 0) prelude = some (.plain 0))
    (hbody : blockEnd? .plain 0 body = some (inner, rest)) {name : Text}
    (hname : trim prelude = '@' :: name) (hgroup : groupNames.contains (atRuleName name) = false) :
    Yields (trim (prelude ++ '\x7b' :: inner ++ ['\x7d']))
      [.raw (trim (prelude ++ '\x7b' :: inner ++ ['\x7d']))] := by
  obtain ⟨gap, hgap, hstart⟩ := exists_trim_append prelude
  rw [hname, List.cons_append] at hstart
  have hfront := trimStart_append prelude
  -- what is trimmed are the blanks before the at-sign
  have htrim : trim (prelude ++ '\x7b' :: inner ++ ['\x7d'])
      = '@' :: (name ++ gap) ++ '\x7b' :: inner ++ ['\x7d'] := by
    rw [hstart] at hfront
    rw [← hfront, List.append_assoc, List.append_assoc, trim_append_left (allBlank_takeWhile prelude),
      ← List.append_assoc]
    exact trim_cons_concat rfl rfl (name ++ gap ++ '\x7b' :: inner)
  have hrun' : preludes.run (.plain 0) ('@' :: (name ++ gap)) = some (.plain 0) := by
    rw [← hfront, Scanner.run_append_of_run (Scanner.run_gap rfl (allBlank_takeWhile prelude))] at hrun
    rwa [← hstart]
  have hname' : trim ('@' :: (name ++ gap)) = '@' :: name := by
    rw [← hname, ← hstart, ← hfront, trim_append_left (allBlank_takeWhile prelude), hfront]
  rw [htrim]
  exact .verbatim hrun' hname' rfl (blockEnd?_of_blockEnd? hbody) hgroup

/-- A sheet each of whose nodes is read as it stands when it is written, up to its rules. -/
inductive Sheet.Stable : List Node → Prop
  | nil : Stable []
  | rule {r : Rule} {ns : List Node} : r.Kept → Stable ns → Stable (.rule r :: ns)
  | group {condition : Text} {children ns : List Node} : Heads condition →
      (∀ t, .raw t ∈ children → Enclosed t) → Stable children → Stable ns →
      Stable (.group condition children :: ns)
  | raw {t : Text} {ns : List Node} : Yields t [.raw t] → Stable ns → Stable (.raw t :: ns)
  /-- What is left open at the end. -/
  | unfinished {t : Text} : (∀ gap, allBlank gap = true → parse (t ++ gap) = [.raw t]) →
      Stable [.raw t]

/-- A sheet that is read as it stands is silent, up to its rules. -/
theorem Sheet.Stable.laid (h : Stable ns) : Laid Rule.Kept ns := by
  induction h with
  | nil => exact .nil
  | rule hr _ ih => exact .rule hr ih
  | group hcondition hraw _ _ ihc ih => exact .group hcondition hraw ihc ih
  | raw ht _ ih => exact .raw (.of_yields ht (by simp)) ih
  | @unfinished t ht =>
    have hread := ht [] rfl
    rw [List.append_nil] at hread
    refine .unfinished ?_
    rw [hread]
    simp [rules]

/-- A complete comment is none that does not end. -/
theorem cut?_of_isClearPiece (h : IsClearPiece (c :: s)) (ha : after? "/*" (c :: s) = some body) :
    cut? "*/" body ≠ none := by
  intro hcut
  obtain ⟨rfl, rfl⟩ : c = '/' ∧ s = '*' :: body := by simpa using after?_eq_some.1 ha
  rcases h with h | ⟨u, hu, hlacks⟩
  · exact h '/' rfl (by decide)
  · obtain rfl : body = u ++ (("*/" : Text) ++ []) := by simpa using hu
    rw [cut?_of_lacks hlacks (apart_of_head (by decide))] at hcut
    cases hcut

/-- What is left open at the end of a clear sheet stands there as it is. -/
theorem parse_trim_of_isClearPiece (h : IsClearPiece (trim s)) (hopen : IsOpen s) (hne : trim s ≠ [])
    (hgap : allBlank gap = true) : parse (trim s ++ gap) = [.raw (trim s)] := by
  rcases h with h | ⟨u, hu, hlacks⟩
  · exact parse_trim_of_isOpen hopen hne h hgap
  · rw [hu, parse_comment hlacks, parse_of_allBlank hgap]

/-- A clear sheet that was read is read again as it stands. -/
theorem stable_parse (h : Clear (parse s)) : Stable (parse s) := by
  fun_induction parse s with
  | case1 => exact .nil
  | case2 c s hc ih => exact ih h
  | case3 c s hc body ha comment rest hcut _ ih =>
    cases h with
    | raw hpiece hrest =>
      refine .raw ?_ (ih hrest)
      rcases hpiece with hhead | ⟨u, hu, hlacks⟩
      · obtain ⟨rfl, -⟩ : c = '/' ∧ s = '*' :: body := by simpa using after?_eq_some.1 ha
        have hlength : s.length + 1 - rest.length = (s.length - rest.length) + 1 := by omega
        rw [hlength, List.take_succ_cons] at hhead
        exact absurd (hhead '/' rfl) (by decide)
      · rw [hu]
        exact .comment hlacks
  | case4 c s hc body ha hcut =>
    cases h with
    | raw hpiece _ => exact absurd hcut (cut?_of_isClearPiece hpiece ha)
  | case5 => exact .nil
  | case6 c s hc ha hprelude htrim =>
    cases h with
    | raw hpiece _ =>
      have hopen : IsOpen (c :: s) := by rw [IsOpen, hprelude]; trivial
      exact .unfinished fun gap hgap => parse_trim_of_isClearPiece hpiece hopen htrim hgap
  | case7 c s hc ha prelude rest hprelude _ ih =>
    cases h with
    | raw hpiece hrest =>
      exact .raw (yields_statement (run_of_preludeEnd? hprelude) hpiece) (ih hrest)
  | case8 c s hc ha prelude body hprelude hbody =>
    cases h with
    | raw hpiece _ =>
      have hopen : IsOpen (c :: s) := by rw [IsOpen, hprelude]; exact hbody
      have hne : trim (c :: s) ≠ [] := by
        intro hnil
        have hbrace : '\x7b' ∈ c :: s := by
          rw [preludeEnd?_eq_some hprelude]
          exact List.mem_append_right prelude List.mem_cons_self
        exact not_mem_of_allBlank_of_isBlank (allBlank_of_trim_eq_nil hnil) (by decide) hbrace
      exact .unfinished fun gap hgap => parse_trim_of_isClearPiece hpiece hopen hne hgap
  | case9 c s hc ha prelude body hprelude inner rest hbody _ name hname hgroup ihc ih =>
    cases h with
    | group hcondition hraw hchildren hrest =>
      refine .group ?_ hraw (ihc hchildren) (ih hrest)
      exact ⟨run_trim_prelude (run_of_preludeEnd? hprelude), trim_trim prelude, ⟨name, hname, hgroup⟩,
        hcondition⟩
  | case10 c s hc ha prelude body hprelude inner rest hbody _ name hname hgroup ih =>
    cases h with
    | raw hpiece hrest =>
      exact .raw (yields_block (run_of_preludeEnd? hprelude) hbody hname (Bool.eq_false_iff.2 hgroup))
        (ih hrest)
  | case11 c s hc ha prelude body hprelude inner rest hbody _ hname ih =>
    cases h with
    | rule hselectors hrest =>
      refine .rule ⟨hselectors, fun t ht => trim_of_mem_splitSelectors ht, ?_, Rule.oneLine_inner rfl⟩
        (ih hrest)
      rw [Enclosed, run_oneLine rfl rfl (by simp)]
      exact run_of_blockEnd? hbody

/-- A clear sheet that was read is silent when it is written, up to its rules. -/
theorem laid_parse (h : Clear (parse s)) : Laid Rule.Kept (parse s) := (stable_parse h).laid

/-! ## Below a wrapper -/

/-- A selector that stands for the wrapper of a widget: the placeholder, or a clear one. -/
def IsWrapper (wrapper : Text) : Prop :=
  wrapper = wrapperPlaceholder ∨ IsClear wrapper ∧ trim wrapper = wrapper

/-- What stands below something else is no selector of the page. -/
theorem isGlobal_below (hs : trim (s ++ ' ' :: t) = s ++ ' ' :: t) :
    isGlobal (s ++ ' ' :: t) = false := by
  have hspace : ' ' ∈ lowerAscii (trim (s ++ ' ' :: t)) := by
    rw [hs, lowerAscii]
    exact List.mem_map.2 ⟨' ', by simp, rfl⟩
  have hnames : ∀ name ∈ [("body" : Text), ("html" : Text)], ' ' ∉ name := by decide
  have hne : ∀ name ∈ [("body" : Text), ("html" : Text)],
      lowerAscii (trim (s ++ ' ' :: t)) ≠ name := by
    rintro name hname h
    exact hnames name hname (h ▸ hspace)
  simp [isGlobal, hne]

theorem isRead_below {wrapper : Text} (hw : IsRead wrapper) (h : IsRead t) :
    IsRead (wrapper ++ ' ' :: t) := by
  have htrimmed : trim (wrapper ++ ' ' :: t) = wrapper ++ ' ' :: t := by
    refine trim_eq_self_iff.2 ⟨fun c hc => ?_, fun c hc => ?_⟩
    · rw [List.head?_append_of_ne_nil _ hw.ne_nil] at hc
      exact (trim_eq_self_iff.1 hw.trimmed).1 c hc
    · rw [List.append_cons, List.getLast?_append_of_ne_nil _ h.ne_nil] at hc
      exact (trim_eq_self_iff.1 h.trimmed).2 c hc
  have hspace : ' ' :: t = [' '] ++ t := rfl
  refine ⟨⟨fun c hc => ?_, ?_, ?_, ?_⟩, htrimmed, by simp⟩
  · rw [List.head?_append_of_ne_nil _ hw.ne_nil] at hc
    exact hw.head c hc
  · rw [hspace, Scanner.run_append_of_run hw.list, Scanner.run_append_of_run (Scanner.run_gap rfl rfl)]
    exact h.list
  · rw [hspace, Scanner.run_append_of_run hw.prelude,
      Scanner.run_append_of_run (Scanner.run_gap rfl rfl)]
    exact h.prelude
  · exact hw.block.append (Enclosed.append (s := [' ']) rfl h.block)

theorem isCalm_below {wrapper : Text} (hw : IsRead wrapper) (h : IsCalm t) :
    IsCalm (wrapper ++ ' ' :: t) := by
  have hbelow := isRead_below hw h.isRead
  exact ⟨hbelow.toIsClear, hbelow.trimmed, hbelow.ne_nil, isGlobal_below hbelow.trimmed⟩

theorem isPlaced_scope {wrapper : Text} (hw : IsWrapper wrapper) (h : IsCalm t) :
    IsPlaced (scope wrapper t) := by
  unfold scope
  split
  · exact .alone h
  · next hout =>
    rcases hw with rfl | ⟨hclear, htrim⟩
    · exact .below h
    · refine .alone (isCalm_below ⟨hclear, htrim, ?_⟩ h)
      rintro rfl
      have hempty : contains t [] = true := by cases t <;> rfl
      exact hout (by rw [hempty]; rfl)

theorem Rule.Calm.scopeTo {wrapper : Text} (hw : IsWrapper wrapper) (h : r.Calm) :
    (r.scopeTo wrapper).Placed := by
  refine placed_of_selectors h.declarations ?_ fun t ht => ?_
  · simpa [Rule.scopeTo] using h.ne_nil
  · obtain ⟨u, hu, rfl⟩ := List.mem_map.1 ht
    exact isPlaced_scope hw (h.calm u hu)

/-! ## Stripping -/

theorem laid_withoutGlobal (h : Laid Rule.Kept ns) : Laid Rule.Calm (withoutGlobal ns) :=
  h.filterMapRules fun _ _ hr hr' => hr.withoutGlobal? hr'

theorem laid_prepare (h : Laid Rule.Kept ns) (used : Option Markup.SelectorSet)
    {wrapper : Option Text} (hw : ∀ w ∈ wrapper, IsWrapper w) :
    Laid Rule.Placed (Sheet.prepare used wrapper ns) := by
  have hrelevant (used : Markup.SelectorSet) : Laid Rule.Kept (relevantTo used ns) := by
    refine h.filterMapRules fun r r' hr hr' => ?_
    unfold Rule.relevant? at hr'
    split at hr'
    · obtain rfl := Option.some.inj hr'
      exact hr
    · simp at hr'
  have hall {ns : Sheet} (h : Laid Rule.Kept ns) : Laid Rule.Placed (Sheet.prepare none wrapper ns) := by
    have hcalm := laid_withoutGlobal h
    cases wrapper with
    | none => exact hcalm.mono fun _ => Rule.Calm.placed
    | some wrapper => exact hcalm.mapRules fun _ => Rule.Calm.scopeTo (hw wrapper rfl)
  cases used with
  | none => exact hall h
  | some used =>
    have hused : Laid Rule.Kept (if used.isEmpty then ns else relevantTo used ns) := by
      split
      · exact h
      · exact hrelevant used
    exact hall hused

/-- Reading a sheet that was stripped, or prepared for a widget, finds no selector of the page, however
deep the groups in it are nested. -/
theorem findGlobal_stripGlobal {css : Text} (h : Clear (parse css)) :
    findGlobal (stripGlobal css) = []
      ∧ ∀ (used : Option Markup.SelectorSet) (wrapper : Option Text),
        (∀ w ∈ wrapper, IsWrapper w) → findGlobal (prepare used wrapper css) = [] := by
  have hlaid := laid_parse h
  have hwritten {ns : List Node} (h : Laid Rule.Placed ns) :
      (parse (Sheet.render ns)).globalSelectors = [] := by
    have hread := h.globalSelectors_eq_nil (List.forall_mem_nil _) (List.forall_mem_nil _)
    rwa [List.append_nil] at hread
  refine ⟨hwritten ((laid_withoutGlobal hlaid).mono fun _ => Rule.Calm.placed),
    fun used wrapper hw => ?_⟩
  rw [findGlobal, prepare]
  split
  · rw [parse, globalSelectors_nil]
  · have hread := hwritten (laid_prepare hlaid used hw)
    obtain ⟨gap, hgap, htext⟩ := exists_trimEnd (Sheet.prepare used wrapper (parse css)).render
    rwa [htext, globalSelectors, rules_append_blanks hgap] at hread

/-- A sheet with a selector of the page in a list in a group, behind a comment that names another, and
with an address and a brace in quotes. -/
def pageCss : Text :=
  "/* html */ @media print\x7bbody, a[href='/x'] \x7bcontent: '\x7d'\x7d\x7d"

/-- The rule that the group of the sheet holds. -/
def pageRule : Rule := ⟨["body", "a[href='/x']"], "content: '\x7d'"⟩

theorem parse_pageCss :
    parse pageCss = [.raw "/* html */", .group "@media print" [.rule pageRule]] := by
  have hprelude : preludeEnd? none 0
        "@media print\x7bbody, a[href='/x'] \x7bcontent: '\x7d'\x7d\x7d"
      = some (("@media print" : Text), .block,
        ("body, a[href='/x'] \x7bcontent: '\x7d'\x7d\x7d" : Text)) := by decide +kernel
  have hbody : blockEnd? .plain 0 "body, a[href='/x'] \x7bcontent: '\x7d'\x7d\x7d"
      = some (("body, a[href='/x'] \x7bcontent: '\x7d'\x7d" : Text), []) := by decide +kernel
  have hprelude' : preludeEnd? none 0 "body, a[href='/x'] \x7bcontent: '\x7d'\x7d"
      = some (("body, a[href='/x'] " : Text), .block, ("content: '\x7d'\x7d" : Text)) := by
    decide +kernel
  have hbody' : blockEnd? .plain 0 "content: '\x7d'\x7d"
      = some (("content: '\x7d'" : Text), []) := by decide +kernel
  have hrule : (⟨splitSelectors (trim "body, a[href='/x'] "), oneLine "content: '\x7d'"⟩ : Rule)
      = pageRule := by decide +kernel
  have htrim : trim "@media print" = '@' :: ("media print" : Text) := by decide +kernel
  have hinner : parse "body, a[href='/x'] \x7bcontent: '\x7d'\x7d" = [.rule pageRule] := by
    refine (parse_rule (by decide) (by decide +kernel) hprelude' hbody' (by decide +kernel)).trans ?_
    rw [hrule, parse]
  refine (parse_comment (t := " html ") (by decide) _).trans ?_
  refine congrArg (Node.raw "/* html */" :: ·) ?_
  refine (parse_gap isAsciiBlank_space _).trans ?_
  refine (parse_group (by decide) (by decide +kernel) hprelude hbody htrim (by decide +kernel)).trans ?_
  rw [htrim, hinner, parse]
  rfl

/-- The sheet is clear, and nothing is left of its selectors of the page. -/
theorem findGlobal_stripGlobal_page : Clear (parse pageCss) ∧ IsWrapper wrapperPlaceholder
    ∧ findGlobal pageCss = [("body" : Text)] ∧ findGlobal (stripGlobal pageCss) = []
    ∧ findGlobal (prepare none (some wrapperPlaceholder) pageCss) = [] := by
  have hselectors : ∀ t ∈ pageRule.selectors, IsClear t := by
    have hbody : IsClear "body" := ⟨by decide, by decide, by decide, by decide⟩
    have hlink : IsClear "a[href='/x']" := ⟨by decide, by decide, by decide, by decide⟩
    exact List.forall_mem_cons.2 ⟨hbody, List.forall_mem_singleton.2 hlink⟩
  have hclear : Clear (parse pageCss) := by
    rw [parse_pageCss]
    exact .raw (.inr ⟨" html ", by decide, by decide⟩)
      (.group (by decide) (by simp) (.rule hselectors .nil) .nil)
  have hfound : findGlobal pageCss = [("body" : Text)] := by
    rw [findGlobal, parse_pageCss, globalSelectors_raw, globalSelectors_group, globalSelectors_rule,
      globalSelectors_nil]
    decide
  have hwrapper : IsWrapper wrapperPlaceholder := .inl rfl
  obtain ⟨hstrip, hprepare⟩ := findGlobal_stripGlobal hclear
  refine ⟨hclear, hwrapper, hfound, hstrip, hprepare none (some wrapperPlaceholder) fun w hw => ?_⟩
  obtain rfl := Option.some.inj hw
  exact hwrapper

/-- A rule for the root of the page, in front of anything. -/
theorem globalSelectors_html (rest : Text) :
    (parse ("html \x7b color: red; \x7d" ++ rest)).globalSelectors
      = ("html" : Text) :: (parse rest).globalSelectors := by
  have hprelude := preludeEnd?_of_run (t := "html ") (by decide) .block
    (" color: red; " ++ '\x7d' :: rest)
  have hinner : Whole " color: red; " := Whole.of_not_mem (by decide)
  have hname : (trim "html ").head? ≠ some '@' := by decide
  have hlist : (splitSelectors (trim "html ")).filter isGlobal = [("html" : Text)] := by decide
  have hstart := start_of_not_mem (c := 'h') (by decide) (by decide)
    ("tml \x7b color: red; \x7d" ++ rest)
  have hread := parse_rule hstart.1 hstart.2 hprelude
    (blockEnd?_whole hinner rest) hname
  refine (congrArg globalSelectors hread).trans ?_
  rw [globalSelectors_rule, hlist]
  rfl

/-- A comment in front of a selector is a node of its own once nothing stands before it, or a wrapper
that is a placeholder; the selector behind it is then one of the page. -/
theorem findGlobal_stripGlobal_comment :
    findGlobal (stripGlobal "body, /* c */ html \x7b color: red; \x7d") = [("html" : Text)]
      ∧ findGlobal (prepare none (some wrapperPlaceholder) ".a, /* c */ html \x7b color: red; \x7d")
        = [("html" : Text)] := by
  have hbody : blockEnd? .plain 0 " color: red; \x7d" = some ((" color: red; " : Text), []) := by
    decide +kernel
  have hcomment : Silent "/* c */" := Silent.comment (t := " c ") (by decide)
  have hspace : Silent [' '] := .blanks (by decide)
  refine ⟨?_, ?_⟩
  · have hprelude : preludeEnd? none 0 "body, /* c */ html \x7b color: red; \x7d"
        = some (("body, /* c */ html " : Text), .block, (" color: red; \x7d" : Text)) := by
      decide +kernel
    have hrule : (⟨splitSelectors (trim "body, /* c */ html "), oneLine " color: red; "⟩ : Rule)
        = ⟨["body", "/* c */ html"], "color: red;"⟩ := by decide +kernel
    have hread : parse "body, /* c */ html \x7b color: red; \x7d"
        = [.rule ⟨["body", "/* c */ html"], "color: red;"⟩] := by
      refine (parse_rule (by decide) (by decide +kernel) hprelude hbody (by decide +kernel)).trans ?_
      rw [hrule, parse]
    have hstrip : stripGlobal "body, /* c */ html \x7b color: red; \x7d"
        = "/* c */" ++ ([' '] ++ ("html \x7b color: red; \x7d" ++ ['\n'])) := by
      have hkept : Rule.withoutGlobal? ⟨["body", "/* c */ html"], "color: red;"⟩
          = some ⟨["/* c */ html"], "color: red;"⟩ := by decide +kernel
      rw [stripGlobal, hread, withoutGlobal, filterMapRules, hkept, filterMapRules, Sheet.render,
        renderLines, renderLines]
      rfl
    rw [hstrip, findGlobal, hcomment, hspace, globalSelectors_html, parse_of_allBlank rfl,
      globalSelectors_nil]
  · have hprelude : preludeEnd? none 0 ".a, /* c */ html \x7b color: red; \x7d"
        = some ((".a, /* c */ html " : Text), .block, (" color: red; \x7d" : Text)) := by
      decide +kernel
    have hrule : (⟨splitSelectors (trim ".a, /* c */ html "), oneLine " color: red; "⟩ : Rule)
        = ⟨[".a", "/* c */ html"], "color: red;"⟩ := by decide +kernel
    have hread : parse ".a, /* c */ html \x7b color: red; \x7d"
        = [.rule ⟨[".a", "/* c */ html"], "color: red;"⟩] := by
      refine (parse_rule (by decide) (by decide +kernel) hprelude hbody (by decide +kernel)).trans ?_
      rw [hrule, parse]
    have hprepare : prepare none (some wrapperPlaceholder) ".a, /* c */ html \x7b color: red; \x7d"
        = ([] ++ wrapperPlaceholder) ++ (((" .a, " : Text) ++ wrapperPlaceholder)
          ++ ([' '] ++ (("/* c */" : Text)
            ++ ([' '] ++ (("html \x7b color: red; \x7d" : Text) ++ []))))) := by
      have hkept : Rule.withoutGlobal? ⟨[".a", "/* c */ html"], "color: red;"⟩
          = some ⟨[".a", "/* c */ html"], "color: red;"⟩ := by decide +kernel
      have hblank : ¬ allBlank ".a, /* c */ html \x7b color: red; \x7d" = true := by decide
      rw [WidgetCompiler.Style.prepare, if_neg hblank, hread, Sheet.prepare, withoutGlobal,
        filterMapRules, hkept, filterMapRules]
      simp only
      rw [Sheet.scopeTo, mapRules, mapRules, Sheet.render, renderLines, renderLines]
      decide +kernel
    have hlead : Leads " .a, " := by
      have ha : IsCalm ".a" := by
        refine ⟨⟨?_, ?_, ?_, ?_⟩, ?_, ?_, ?_⟩
        all_goals decide
      have hspace : Leads [' '] := .blanks rfl
      exact hspace.append (.of_isCalm ha)
    rw [hprepare, findGlobal, Silent.placeholder (.blanks rfl), Silent.placeholder hlead, hspace,
      hcomment, hspace, globalSelectors_html, parse, globalSelectors_nil]

end WidgetCompiler.Style
