import WidgetCompiler.Proofs.Style.Yields

/-!
# Sheets that are written in silence

A text is silent if reading passes over it and finds no selector of the page in it, whatever follows
(`Silent`).  What is written of a rule without such selectors is silent, below a wrapper too
(`Rule.Calm.placed`, `Rule.Placed`): the braces of a wrapper that is a placeholder are read as a block of
its own and take the list of selectors apart, so the list is followed from one placeholder to the next
(`Silent.list`).  A sheet whose nodes are silent is read without a selector of the page, however deep the
groups in it are nested (`Laid.globalSelectors_eq_nil`).
-/

namespace WidgetCompiler.Style

open Text

variable {c : Char} {s t u gap prelude body inner rest condition indent : Text} {stop : PreludeEnd}
  {r : Rule} {ns children : List Node}

/-! ## Clear selectors -/

/-- In a block the text leads from plain text back to it. -/
def Enclosed (t : Text) : Prop := blocks.run (.plain, 0) t = some (.plain, 0)

instance (t : Text) : Decidable (Enclosed t) := inferInstanceAs (Decidable (_ = _))

theorem Enclosed.append (hs : Enclosed s) (ht : Enclosed t) : Enclosed (s ++ t) :=
  (Scanner.run_append_of_run hs).trans ht

theorem Enclosed.whole (h : Enclosed t) : Whole t := whole_of_run h

/-- A block within a block. -/
theorem Enclosed.braced (h : Enclosed t) : Enclosed ('\x7b' :: (t ++ ['\x7d'])) := by
  have hopen : blocks.step (.plain, 0) '\x7b' = some (.plain, 0 + 1) := rfl
  have hclose : blocks.run (.plain, 0 + 1) ['\x7d'] = some (.plain, 0) := rfl
  rw [Enclosed, Scanner.run_cons, hopen]
  exact (Scanner.run_append_of_run (run_deeper h 1)).trans hclose

/-- A selector that each reader passes over as a whole, and that begins nothing else. -/
structure IsClear (t : Text) : Prop where
  head : ∀ c ∈ t.head?, c ∉ ("\x7d/@" : Text)
  list : selectors.run (.plain 0) t = some (.plain 0)
  prelude : preludes.run (.plain 0) t = some (.plain 0)
  block : Enclosed t

/-! ## Texts without selectors of the page -/

namespace Sheet

@[simp] theorem globalSelectors_nil : globalSelectors [] = [] := by simp [globalSelectors, rules]

@[simp] theorem globalSelectors_rule :
    globalSelectors (.rule r :: ns) = r.selectors.filter isGlobal ++ globalSelectors ns := by
  simp [globalSelectors, rules]

@[simp] theorem globalSelectors_group :
    globalSelectors (.group condition children :: ns)
      = globalSelectors children ++ globalSelectors ns := by
  simp [globalSelectors, rules]

@[simp] theorem globalSelectors_raw : globalSelectors (.raw t :: ns) = globalSelectors ns := by
  simp [globalSelectors, rules]

theorem globalSelectors_append (ns ms : List Node) :
    globalSelectors (ns ++ ms) = globalSelectors ns ++ globalSelectors ms := by
  induction ns with
  | nil => simp
  | cons n ns ih => cases n <;> simp [ih]

theorem globalSelectors_of_rules (h : rules ns = []) : globalSelectors ns = [] := by
  simp [globalSelectors, h]

end Sheet

open Sheet

/-- Reading passes over the text and finds no selector of the page in it. -/
def Silent (t : Text) : Prop :=
  ∀ rest, (parse (t ++ rest)).globalSelectors = (parse rest).globalSelectors

namespace Silent

theorem append (hs : Silent s) (ht : Silent t) : Silent (s ++ t) := by
  intro rest
  rw [List.append_assoc, hs, ht]

theorem blanks (h : ∀ c ∈ gap, isAsciiBlank c = true) : Silent gap := fun rest => by
  rw [parse_gap h]

/-- A text is silent if the nodes that it yields have no selector of the page. -/
theorem of_yields (h : Yields t ns) (hquiet : globalSelectors ns = []) : Silent t := by
  intro rest
  rw [h, globalSelectors_append, hquiet, List.nil_append]

theorem comment (h : Lacks "*/" t) : Silent ("/*" ++ t ++ "*/") :=
  .of_yields (.comment h) (globalSelectors_raw.trans globalSelectors_nil)

/-- A list of selectors of which none is one of the page, with a block. -/
theorem block (hrun : preludes.run (.plain 0) prelude = some (.plain 0))
    (hhead : ∀ c ∈ (trimStart prelude).head?, c ∉ ("\x7d/@" : Text))
    (hquiet : (splitSelectors prelude).filter isGlobal = []) (hinner : Whole inner) :
    Silent (prelude ++ '\x7b' :: (inner ++ ['\x7d'])) := by
  refine .of_yields (.rule hrun hhead hinner) ?_
  rw [globalSelectors_rule, hquiet, globalSelectors_nil, List.append_nil]

end Silent

/-! ## Lists of selectors -/

/-- A clear selector as it stands in a rule that was read. -/
structure IsRead (t : Text) : Prop extends IsClear t where
  trimmed : trim t = t
  ne_nil : t ≠ []

theorem IsRead.trimStart_append (h : IsRead t) (s : Text) : trimStart (t ++ s) = t ++ s := by
  refine trimStart_eq_self fun c hc => ?_
  rw [List.head?_append_of_ne_nil _ h.ne_nil] at hc
  exact (trim_eq_self_iff.1 h.trimmed).1 c hc

theorem IsRead.head_append (h : IsRead t) (s : Text) :
    ∀ c ∈ (trimStart (t ++ s)).head?, c ∉ ("\x7d/@" : Text) := by
  intro c hc
  rw [h.trimStart_append, List.head?_append_of_ne_nil _ h.ne_nil] at hc
  exact h.head c hc

/-- What a text begins with behind blanks is a matter of its first piece that is not blank. -/
theorem head_append {marks : Text} (hs : ∀ c ∈ (trimStart s).head?, c ∉ marks)
    (ht : ∀ c ∈ (trimStart t).head?, c ∉ marks) : ∀ c ∈ (trimStart (s ++ t)).head?, c ∉ marks := by
  intro c hc
  cases hblank : allBlank s with
  | true =>
    rw [trimStart_append_of_allBlank hblank] at hc
    exact ht c hc
  | false =>
    rw [trimStart_append_of_not_allBlank hblank,
      List.head?_append_of_ne_nil _ (trimStart_ne_nil hblank)] at hc
    exact hs c hc

/-- A text at the beginning of a list of selectors, and those that are read from it, whatever follows. -/
structure Carries (s : Text) (ts : List Text) : Prop where
  prelude : preludes.run (.plain 0) s = some (.plain 0)
  head : ∀ c ∈ (trimStart s).head?, c ∉ ("\x7d/@" : Text)
  list : ∀ rest, splitSelectors (s ++ rest) = ts ++ splitSelectors rest

namespace Carries

variable {ts us : List Text}

theorem blanks (h : allBlank gap = true) : Carries gap [] where
  prelude := Scanner.run_gap rfl h
  head c hc := by
    rw [trimStart_of_allBlank h] at hc
    simp at hc
  list rest := by rw [splitSelectors_blanks h, List.nil_append]

theorem append (hs : Carries s ts) (ht : Carries t us) : Carries (s ++ t) (ts ++ us) where
  prelude := (Scanner.run_append_of_run hs.prelude).trans ht.prelude
  head := head_append hs.head ht.head
  list rest := by rw [List.append_assoc, hs.list, ht.list, List.append_assoc]

/-- A selector in front of the next one. -/
theorem selector (h : IsRead t) : Carries (t ++ ", ") [t] where
  prelude := (Scanner.run_append_of_run h.prelude).trans (by decide)
  head := h.head_append ", "
  list rest := by
    have hshape : t ++ (", " : Text) ++ rest = t ++ ',' :: ([' '] ++ rest) := by simp
    rw [hshape, splitSelectors_append h.list, splitSelectors_blanks rfl,
      selectorOf_of_trim h.trimmed h.ne_nil]

/-- The last selector of a list and its block. -/
theorem last (hs : Carries s ts) (ht : IsRead t) (hinner : Whole inner) :
    Yields (s ++ t ++ [' '] ++ '\x7b' :: (inner ++ ['\x7d'])) [.rule ⟨ts ++ [t], oneLine inner⟩] := by
  have hlist : splitSelectors (s ++ t ++ [' ']) = ts ++ [t] := by
    rw [List.append_assoc, hs.list, splitSelectors_append_blanks rfl, splitSelectors_of_run ht.list,
      selectorOf_of_trim ht.trimmed ht.ne_nil]
  rw [← hlist]
  refine .rule ?_ (fun c hc => ?_) hinner
  · rw [List.append_assoc, Scanner.run_append_of_run hs.prelude,
      Scanner.run_append_of_run ht.prelude]
    decide
  · rw [List.append_assoc] at hc
    exact head_append hs.head (ht.head_append [' ']) c hc

/-- The placeholder ends the list before it, with a block of its own. -/
theorem placeholder (hs : Carries s ts) :
    Yields (s ++ wrapperPlaceholder) [.rule ⟨ts, "\x7bWRAPPER\x7d"⟩] := by
  have hempty : splitSelectors [] = [] := by decide
  have hlist := hs.list []
  rw [List.append_nil, hempty, List.append_nil] at hlist
  have hinner : Whole ("\x7bWRAPPER\x7d" : Text) := by
    have henclosed : Enclosed ("\x7bWRAPPER\x7d" : Text) := by decide
    exact henclosed.whole
  have hline : oneLine ("\x7bWRAPPER\x7d" : Text) = ("\x7bWRAPPER\x7d" : Text) := by decide
  have hblock := Yields.rule hs.prelude hs.head hinner
  rw [hlist, hline] at hblock
  exact hblock

end Carries

/-- A clear selector, as it stands in a rule, that is not one of the page. -/
structure IsCalm (t : Text) : Prop extends IsClear t where
  trimmed : trim t = t
  ne_nil : t ≠ []
  isGlobal_eq : isGlobal t = false

theorem IsCalm.isRead (h : IsCalm t) : IsRead t := ⟨h.toIsClear, h.trimmed, h.ne_nil⟩

/-- A text before a selector in a list. -/
structure Leads (t : Text) : Prop where
  prelude : preludes.run (.plain 0) t = some (.plain 0)
  head : ∀ c ∈ (trimStart t).head?, c ∉ ("\x7d/@" : Text)
  quiet : ∀ rest, (splitSelectors (t ++ rest)).filter isGlobal
    = (splitSelectors rest).filter isGlobal

theorem Carries.leads {ts : List Text} (hs : Carries s ts) (hquiet : ts.filter isGlobal = []) :
    Leads s where
  prelude := hs.prelude
  head := hs.head
  quiet rest := by rw [hs.list, List.filter_append, hquiet, List.nil_append]

namespace Leads

theorem blanks (h : allBlank gap = true) : Leads gap := (Carries.blanks h).leads rfl

theorem of_isCalm (h : IsCalm t) : Leads (t ++ ", ") :=
  (Carries.selector h.isRead).leads (by simp [h.isGlobal_eq])

theorem append (hs : Leads s) (ht : Leads t) : Leads (s ++ t) where
  prelude := (Scanner.run_append_of_run hs.prelude).trans ht.prelude
  head := head_append hs.head ht.head
  quiet rest := by rw [List.append_assoc, hs.quiet, ht.quiet]

end Leads

/-- The last selector of a list and its block. -/
theorem Silent.last (hs : Leads s) (ht : IsCalm t) (hinner : Whole inner) :
    Silent (s ++ t ++ [' '] ++ '\x7b' :: (inner ++ ['\x7d'])) := by
  refine .block ?_ (fun c hc => ?_) ?_ hinner
  · rw [List.append_assoc, Scanner.run_append_of_run hs.prelude,
      Scanner.run_append_of_run ht.prelude]
    decide
  · rw [List.append_assoc] at hc
    exact head_append hs.head (ht.isRead.head_append [' ']) c hc
  · rw [List.append_assoc, hs.quiet, splitSelectors_append_blanks rfl, splitSelectors_of_run ht.list,
      selectorOf_of_trim ht.trimmed ht.ne_nil, List.filter_cons_of_neg]
    · rfl
    · simp [ht.isGlobal_eq]

/-- A selector as it stands below a wrapper: behind the placeholder, or by itself. -/
inductive IsPlaced : Text → Prop
  | alone {t : Text} : IsCalm t → IsPlaced t
  | below {t : Text} : IsCalm t → IsPlaced (wrapperPlaceholder ++ ' ' :: t)

/-- The placeholder ends the list before it, with a block of its own. -/
theorem Silent.placeholder (hs : Leads s) : Silent (s ++ wrapperPlaceholder) := by
  have hquiet := hs.quiet []
  rw [List.append_nil] at hquiet
  have hinner : Whole ("\x7bWRAPPER\x7d" : Text) := by
    have henclosed : Enclosed ("\x7bWRAPPER\x7d" : Text) := by decide
    exact henclosed.whole
  have hblock := Silent.block hs.prelude hs.head (hquiet.trans (by decide)) hinner
  exact hblock

/-- A list of selectors, each below the placeholder or by itself, and its block. -/
theorem Silent.list (hs : Leads s) {ts : List Text} (hne : ts ≠ []) (h : ∀ t ∈ ts, IsPlaced t)
    (hinner : Whole inner) :
    Silent (s ++ join ", " ts ++ [' '] ++ '\x7b' :: (inner ++ ['\x7d'])) := by
  have hspace : Leads [' '] := .blanks rfl
  fun_induction join ", " ts generalizing s with
  | case1 => exact absurd rfl hne
  | case2 t =>
    cases h t (by simp) with
    | alone ht => exact .last hs ht hinner
    | @below t ht =>
      have hsplit := (Silent.placeholder hs).append (.last hspace ht hinner)
      simpa using hsplit
  | case3 t u ts ih =>
    have hrest : ∀ v ∈ u :: ts, IsPlaced v := fun v hv => h v (List.mem_cons_of_mem _ hv)
    cases h t (by simp) with
    | alone ht =>
      have hlist := ih (hs.append (.of_isCalm ht)) (by simp) hrest
      simpa using hlist
    | @below t ht =>
      have hlist := ih (hspace.append (.of_isCalm ht)) (by simp) hrest
      have hsplit := (Silent.placeholder hs).append hlist
      simpa using hsplit

/-! ## Rules -/

/-- A rule that is written as one that is silent and stays in a block. -/
def Rule.Placed (r : Rule) : Prop := Silent r.render ∧ Whole r.render

theorem IsPlaced.enclosed (h : IsPlaced t) : Enclosed t := by
  cases h with
  | alone ht => exact ht.block
  | below ht =>
    have hfront : Enclosed (wrapperPlaceholder ++ [' ']) := by decide
    have henclosed := hfront.append ht.block
    rwa [List.append_assoc] at henclosed

theorem enclosed_join {ts : List Text} (h : ∀ t ∈ ts, Enclosed t) : Enclosed (join ", " ts) := by
  have hcomma : Enclosed ", " := by decide
  fun_induction join ", " ts with
  | case1 => rfl
  | case2 t => exact h t (by simp)
  | case3 t u ts ih =>
    exact ((h t (by simp)).append hcomma).append (ih fun v hv => h v (List.mem_cons_of_mem _ hv))

theorem enclosed_inner (hr : Enclosed (r.declarations ++ [' '])) : Enclosed r.inner := by
  have hspace : Enclosed [' '] := rfl
  rw [Rule.inner]
  split
  · rfl
  · exact hspace.append hr

/-- A rule whose selectors stay in a block stays in it too. -/
theorem whole_of_selectors (hr : Enclosed (r.declarations ++ [' ']))
    (h : ∀ t ∈ r.selectors, Enclosed t) : Whole r.render := by
  have hspace : Enclosed [' '] := rfl
  rw [r.render_eq]
  exact (((enclosed_join h).append hspace).append (enclosed_inner hr).braced).whole

theorem placed_of_selectors (hr : Enclosed (r.declarations ++ [' '])) (hne : r.selectors ≠ [])
    (h : ∀ t ∈ r.selectors, IsPlaced t) : r.Placed := by
  refine ⟨?_, whole_of_selectors hr fun t ht => (h t ht).enclosed⟩
  have hstart : Leads [] := .blanks rfl
  have hsilent := Silent.list hstart hne h (enclosed_inner hr).whole
  rwa [List.nil_append, ← r.render_eq] at hsilent

/-- A rule without selectors of the page. -/
structure Rule.Calm (r : Rule) : Prop where
  ne_nil : r.selectors ≠ []
  calm : ∀ t ∈ r.selectors, IsCalm t
  declarations : Enclosed (r.declarations ++ [' '])

theorem Rule.Calm.placed (h : r.Calm) : r.Placed :=
  placed_of_selectors h.declarations h.ne_nil fun t ht => .alone (h.calm t ht)

/-! ## Sheets that are written in silence -/

/-- The condition of a group that was read. -/
structure Heads (condition : Text) : Prop where
  prelude : preludes.run (.plain 0) condition = some (.plain 0)
  trimmed : trim condition = condition
  named : ∃ name, condition = '@' :: name ∧ groupNames.contains (atRuleName name) = true
  block : Enclosed condition

theorem Heads.yields (h : Heads condition) (hinner : Whole inner) :
    Yields (condition ++ [' '] ++ '\x7b' :: (inner ++ ['\x7d'])) [.group condition (parse inner)] := by
  obtain ⟨name, rfl, hgroup⟩ := h.named
  have hrun : preludes.run (.plain 0) ('@' :: name ++ [' ']) = some (.plain 0) :=
    (Scanner.run_append_of_run h.prelude).trans (by decide)
  have htrim : trim ('@' :: name ++ [' ']) = '@' :: name := (trim_append_right rfl).trans h.trimmed
  exact .group hrun htrim rfl hinner hgroup

theorem Heads.globalSelectors (h : Heads condition) (hinner : Whole inner) (rest : Text) :
    (parse (condition ++ [' '] ++ '\x7b' :: (inner ++ ['\x7d']) ++ rest)).globalSelectors
      = (parse inner).globalSelectors ++ (parse rest).globalSelectors := by
  rw [h.yields hinner, List.singleton_append, globalSelectors_group]

/-- A sheet each of whose nodes is silent when it is written, where `P` says so of its rules. -/
inductive Laid (P : Rule → Prop) : List Node → Prop
  | nil : Laid P []
  | rule {r : Rule} {ns : List Node} : P r → Laid P ns → Laid P (.rule r :: ns)
  | group {condition : Text} {children ns : List Node} : Heads condition →
      (∀ t, .raw t ∈ children → Enclosed t) → Laid P children → Laid P ns →
      Laid P (.group condition children :: ns)
  | raw {t : Text} {ns : List Node} : Silent t → Laid P ns → Laid P (.raw t :: ns)
  /-- What is left open at the end. -/
  | unfinished {t : Text} : rules (parse t) = [] → Laid P [.raw t]

namespace Laid

variable {P Q : Rule → Prop}

theorem mono (hPQ : ∀ r, P r → Q r) (h : Laid P ns) : Laid Q ns := by
  induction h with
  | nil => exact .nil
  | rule hr _ ih => exact .rule (hPQ _ hr) ih
  | group hcondition hchildren _ _ ihc ih => exact .group hcondition hchildren ihc ih
  | raw ht _ ih => exact .raw ht ih
  | unfinished ht => exact .unfinished ht

theorem mem_of_mem_filterMapRules {f : Rule → Option Rule}
    (h : .raw t ∈ filterMapRules f ns) : .raw t ∈ ns := by
  fun_induction filterMapRules f ns with
  | case6 t' ns ih => exact (List.mem_cons.1 h).elim (fun h => by simp [h]) fun h => by simp [ih h]
  | _ => simp_all

theorem mem_of_mem_mapRules {f : Rule → Rule} (h : .raw t ∈ mapRules f ns) : .raw t ∈ ns := by
  fun_induction mapRules f ns with
  | case4 t' ns ih => exact (List.mem_cons.1 h).elim (fun h => by simp [h]) fun h => by simp [ih h]
  | _ => simp_all

/-- Leaving rules out, or exchanging them, leaves the rest as it is. -/
theorem filterMapRules {f : Rule → Option Rule} (hf : ∀ r r', P r → f r = some r' → Q r')
    (h : Laid P ns) : Laid Q (filterMapRules f ns) := by
  induction h with
  | nil =>
    rw [Sheet.filterMapRules]
    exact .nil
  | @rule r ns hr _ ih =>
    rw [Sheet.filterMapRules]
    split
    · next r' hr' => exact .rule (hf r r' hr hr') ih
    · exact ih
  | @group condition children ns hcondition hchildren _ _ ihc ih =>
    rw [Sheet.filterMapRules]
    split
    · exact ih
    · exact .group hcondition (fun t ht => hchildren t (mem_of_mem_filterMapRules ht)) ihc ih
  | raw ht _ ih =>
    rw [Sheet.filterMapRules]
    exact .raw ht ih
  | unfinished ht =>
    rw [Sheet.filterMapRules, Sheet.filterMapRules]
    exact .unfinished ht

theorem mapRules {f : Rule → Rule} (hf : ∀ r, P r → Q (f r)) (h : Laid P ns) :
    Laid Q (mapRules f ns) := by
  induction h with
  | nil =>
    rw [Sheet.mapRules]
    exact .nil
  | rule hr _ ih =>
    rw [Sheet.mapRules]
    exact .rule (hf _ hr) ih
  | group hcondition hchildren _ _ ihc ih =>
    rw [Sheet.mapRules]
    exact .group hcondition (fun t ht => hchildren t (mem_of_mem_mapRules ht)) ihc ih
  | raw ht _ ih =>
    rw [Sheet.mapRules]
    exact .raw ht ih
  | unfinished ht =>
    rw [Sheet.mapRules, Sheet.mapRules]
    exact .unfinished ht

/-- What is written of a group's children stays in its block. -/
theorem whole (hP : ∀ r, P r → Whole r.render) (h : Laid P ns) (hraw : ∀ t, .raw t ∈ ns → Enclosed t)
    (hindent : ∀ c ∈ indent, isAsciiBlank c = true) : Whole (joinLines (renderLines indent ns)) := by
  have hfeed : Whole ['\n'] := .of_not_mem (by decide)
  induction h generalizing indent with
  | nil =>
    rw [renderLines]
    exact .nil
  | rule hr _ ih =>
    rw [renderLines, joinLines, ← List.singleton_append]
    refine ((whole_of_blank hindent).append (hP _ hr)).append (hfeed.append (ih ?_ hindent))
    exact fun t ht => hraw t (List.mem_cons_of_mem _ ht)
  | @group condition children ns hcondition hchildren _ _ ihc ih =>
    have hbody := whole_groupBody hindent (ihc hchildren (isAsciiBlank_deeper hindent))
    have hprelude : Whole (condition ++ [' ']) :=
      hcondition.block.whole.append (.of_not_mem (by decide))
    rw [joinLines_renderLines_group, ← List.singleton_append (l := joinLines _)]
    refine ((whole_of_blank hindent).append (hprelude.append ?_)).append (hfeed.append (ih ?_ hindent))
    · exact .braced fun _ _ => hbody _ _
    · exact fun t ht => hraw t (List.mem_cons_of_mem _ ht)
  | raw _ _ ih =>
    rw [renderLines, joinLines, ← List.singleton_append]
    refine ((whole_of_blank hindent).append (hraw _ (by simp)).whole).append
      (hfeed.append (ih ?_ hindent))
    exact fun t ht => hraw t (List.mem_cons_of_mem _ ht)
  | unfinished =>
    rw [renderLines, joinLines, renderLines, joinLines]
    exact ((whole_of_blank hindent).append (hraw _ (by simp)).whole).append hfeed

/-- What is written is read without a selector of the page. -/
theorem globalSelectors_eq_nil (h : Laid Rule.Placed ns)
    (hindent : ∀ c ∈ indent, isAsciiBlank c = true) (hgap : ∀ c ∈ gap, isAsciiBlank c = true) :
    (parse (joinLines (renderLines indent ns) ++ gap)).globalSelectors = [] := by
  have hfeed : Silent ['\n'] := .blanks (by decide)
  have hnext (s : Text) : (parse ('\n' :: s)).globalSelectors = (parse s).globalSelectors := hfeed s
  have hblank {gap : Text} (h : ∀ c ∈ gap, isAsciiBlank c = true) : allBlank gap = true :=
    List.all_eq_true.2 fun c hc => isBlank_of_isAsciiBlank (h c hc)
  induction h generalizing indent gap with
  | nil =>
    rw [renderLines, joinLines, List.nil_append, parse_of_allBlank (hblank hgap), globalSelectors_nil]
  | rule hr _ ih =>
    rw [renderLines, joinLines, List.append_assoc, List.append_assoc, parse_gap hindent, hr.1,
      List.cons_append, hnext, ih hindent hgap]
  | @group condition children ns hcondition hchildren hlaid _ ihc ih =>
    have hdeeper := isAsciiBlank_deeper hindent
    have hbody := whole_groupBody hindent (hlaid.whole (fun _ hr => hr.2) hchildren hdeeper)
    have hinner : (parse (groupBody indent children)).globalSelectors = [] := by
      rw [groupBody, List.cons_append, hnext, ihc hdeeper hindent]
    rw [joinLines_renderLines_group, List.append_assoc, List.append_assoc, parse_gap hindent,
      hcondition.globalSelectors hbody, hinner, List.cons_append, hnext, ih hindent hgap,
      List.nil_append]
  | raw ht _ ih =>
    rw [renderLines, joinLines, List.append_assoc, List.append_assoc, parse_gap hindent, ht,
      List.cons_append, hnext, ih hindent hgap]
  | unfinished ht =>
    rw [renderLines, joinLines, renderLines, joinLines, List.append_assoc, List.append_assoc,
      parse_gap hindent]
    refine globalSelectors_of_rules ?_
    rw [rules_append_blanks, ht]
    simpa [isBlank] using hblank hgap

end Laid

end WidgetCompiler.Style
