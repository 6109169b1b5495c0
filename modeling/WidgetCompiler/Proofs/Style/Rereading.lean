import WidgetCompiler.Proofs.Style.Characters
import WidgetCompiler.Proofs.Style.Scanners

/-!
# Reading a sheet in front of another text

What the scanners say of a sheet carries over to any text that goes on with it.  A prelude and a block
that were read once are read again in front of anything else (`preludeEnd?_of_run`,
`blockEnd?_of_blockEnd?`), a list of selectors is taken apart where it is put together
(`splitSelectors_append`), and blanks around a sheet change nothing about its rules
(`Sheet.parse_blanks`, `Sheet.rules_append_blanks`).
-/

namespace WidgetCompiler.Style

open Text

variable {c : Char} {s t u gap prelude body inner rest : Text} {stop : PreludeEnd}

/-! ## Preludes and blocks -/

theorem preludes_step_eq_none {m : PreludeMode} (h : preludes.step m c = none) :
    m = .plain 0 ∧ (c = ';' ∨ c = '\x7b') := by
  cases m with
  | plain n =>
    simp only [preludes, PreludeMode.step] at h
    split at h
    · simp at h
    · split at h
      · simp at h
      · split at h
        · simp at h
        · split at h
          · next hc => exact ⟨by rw [hc.2], .inl hc.1⟩
          · split at h
            · next hc => exact ⟨by rw [hc.2], .inr hc.1⟩
            · simp at h
  | quoted q n => simp [preludes, PreludeMode.step] at h
  | escaped q n => simp [preludes, PreludeMode.step] at h

/-- A text that leads from plain text back to it is a prelude in front of what ends one. -/
theorem preludeEnd?_of_run (h : preludes.run (.plain 0) t = some (.plain 0)) (stop : PreludeEnd)
    (rest : Text) : preludeEnd? none 0 (t ++ stop.char :: rest) = some (t, stop, rest) := by
  have hstop : preludes.step (.plain 0) stop.char = none := by cases stop <;> decide
  rw [preludeEnd?_eq_stopAt, Scanner.stopAt_eq_some.2 ⟨rfl, _, h, hstop⟩]
  cases stop <;> rfl

theorem run_of_preludeEnd? (h : preludeEnd? none 0 s = some (prelude, stop, rest)) :
    preludes.run (.plain 0) prelude = some (.plain 0) := by
  rw [preludeEnd?_eq_stopAt] at h
  obtain ⟨⟨t, c, u⟩, hstop, he⟩ := Option.map_eq_some_iff.1 h
  obtain ⟨rfl, -⟩ := Prod.mk.inj he
  obtain ⟨-, m', hrun, hstep⟩ := Scanner.stopAt_eq_some.1 hstop
  rw [hrun, (preludes_step_eq_none hstep).1]

/-- A prelude goes on behind blanks. -/
theorem preludeEnd?_blanks (h : allBlank gap = true) (s : Text) :
    preludeEnd? none 0 (gap ++ s) = (preludeEnd? none 0 s).map
      fun (prelude, stop, rest) => (gap ++ prelude, stop, rest) := by
  rw [preludeEnd?_eq_stopAt, Scanner.stopAt_append (Scanner.run_gap rfl h), preludeEnd?_eq_stopAt,
    Option.map_map, Option.map_map]
  rfl

/-- A text without a prelude has none with blanks behind it. -/
theorem preludeEnd?_append_blanks (h : preludeEnd? none 0 s = none) (hgap : allBlank gap = true) :
    preludeEnd? none 0 (s ++ gap) = none := by
  rw [preludeEnd?_eq_stopAt, Option.map_eq_none_iff] at h ⊢
  exact Scanner.stopAt_append_gap h hgap

theorem blocks_step_eq_none {m : BlockMode} {depth : Nat} (h : blocks.step (m, depth) c = none) :
    m.settle = .plain ∧ depth = 0 ∧ c = '\x7d' := by
  have hplain (h : BlockMode.stepPlain depth c = none) : depth = 0 ∧ c = '\x7d' := by
    simp only [BlockMode.stepPlain] at h
    split at h
    · simp at h
    · split at h
      · simp at h
      · split at h
        · simp at h
        · split at h
          · next hc =>
            split at h
            · next hdepth => exact ⟨hdepth, hc⟩
            · simp at h
          · simp at h
  simp only [blocks] at h
  cases m with
  | plain => exact ⟨rfl, hplain h⟩
  | slash =>
    simp only [BlockMode.step] at h
    split at h
    · simp at h
    · exact ⟨rfl, hplain h⟩
  | _ => simp [BlockMode.step] at h

/-- The block that ends a reading ends it in front of anything else. -/
theorem blockEnd?_of_blockEnd? (h : blockEnd? .plain 0 body = some (inner, rest)) (u : Text) :
    blockEnd? .plain 0 (inner ++ '\x7d' :: u) = some (inner, u) := by
  rw [blockEnd?_eq_stopAt] at h ⊢
  obtain ⟨⟨t, c, v⟩, hstop, he⟩ := Option.map_eq_some_iff.1 h
  obtain ⟨rfl, -⟩ := Prod.mk.inj he
  obtain ⟨-, m', hrun, hstep⟩ := Scanner.stopAt_eq_some.1 hstop
  obtain rfl := (blocks_step_eq_none hstep).2.2
  rw [Scanner.stopAt_eq_some.2 ⟨rfl, m', hrun, hstep⟩]
  rfl

/-- What stands between the braces of a block leads back to plain text, with a blank behind it. -/
theorem run_of_blockEnd? (h : blockEnd? .plain 0 body = some (inner, rest)) :
    blocks.run (.plain, 0) (inner ++ [' ']) = some (.plain, 0) := by
  rw [blockEnd?_eq_stopAt] at h
  obtain ⟨⟨t, c, v⟩, hstop, he⟩ := Option.map_eq_some_iff.1 h
  obtain ⟨rfl, -⟩ := Prod.mk.inj he
  obtain ⟨-, ⟨m, depth⟩, hrun, hstep⟩ := Scanner.stopAt_eq_some.1 hstop
  obtain ⟨hplain, rfl, -⟩ := blocks_step_eq_none hstep
  rw [Scanner.run_append_of_run hrun, Scanner.run_gap_of_ne_nil rfl (by simp)]
  exact congrArg (fun m => some (m, 0)) hplain

theorem blockEnd?_append_blanks (h : blockEnd? .plain 0 s = none) (hgap : allBlank gap = true) :
    blockEnd? .plain 0 (s ++ gap) = none := by
  rw [blockEnd?_eq_stopAt, Option.map_eq_none_iff] at h ⊢
  exact Scanner.stopAt_append_gap h hgap

/-! ## Lists of selectors -/

/-- The selector that a piece of a list holds, if it holds one. -/
def selectorOf (piece : Text) : List Text := [trim piece].filter (! ·.isEmpty)

theorem selectorOf_of_trim (htrim : trim t = t) (hne : t ≠ []) : selectorOf t = [t] := by
  simp [selectorOf, htrim, hne]

/-- A list of selectors holds that of its first piece and those behind it. -/
theorem splitSelectors_eq_stopAt (s : Text) : splitSelectors s
    = match selectors.stopAt (.plain 0) s with
      | none => selectorOf s
      | some (t, _, rest) => selectorOf t ++ splitSelectors rest := by
  have hsplit : splitCommas none 0 s = match selectors.stopAt (.plain 0) s with
      | none => [s]
      | some (t, _, rest) => t :: splitCommas none 0 rest := splitCommas_eq_stopAt (.plain 0) s
  rw [splitSelectors, hsplit]
  cases selectors.stopAt (.plain 0) s with
  | none => rfl
  | some stop =>
    show _ = selectorOf stop.1 ++ splitSelectors stop.2.2
    rw [selectorOf, splitSelectors, ← List.filter_append]
    rfl

/-- Behind a selector that is read as a whole the next one is read. -/
theorem splitSelectors_append (h : selectors.run (.plain 0) t = some (.plain 0)) (rest : Text) :
    splitSelectors (t ++ ',' :: rest) = selectorOf t ++ splitSelectors rest := by
  have hcomma : selectors.step (.plain 0) ',' = none := by decide
  rw [splitSelectors_eq_stopAt, Scanner.stopAt_eq_some.2 ⟨rfl, _, h, hcomma⟩]

theorem splitSelectors_of_run {m : ListMode} (h : selectors.run (.plain 0) t = some m) :
    splitSelectors t = selectorOf t := by
  rw [splitSelectors_eq_stopAt, Scanner.stopAt_eq_none.2 ⟨m, h⟩]

theorem splitSelectors_blanks (h : allBlank gap = true) (s : Text) :
    splitSelectors (gap ++ s) = splitSelectors s := by
  rw [splitSelectors_eq_stopAt, splitSelectors_eq_stopAt s,
    Scanner.stopAt_append (Scanner.run_gap rfl h)]
  cases selectors.stopAt (.plain 0) s with
  | none => exact congrArg (fun t => [t].filter _) (trim_append_left h)
  | some stop =>
    have htrim : selectorOf (gap ++ stop.1) = selectorOf stop.1 := by
      rw [selectorOf, selectorOf, trim_append_left h]
    exact congrArg (· ++ splitSelectors stop.2.2) htrim

theorem splitSelectors_append_blanks (h : allBlank gap = true) (s : Text) :
    splitSelectors (s ++ gap) = splitSelectors s := by
  induction hlength : s.length using Nat.strong_induction_on generalizing s with
  | h n ih =>
    rw [splitSelectors_eq_stopAt, splitSelectors_eq_stopAt s]
    cases hstop : selectors.stopAt (.plain 0) s with
    | none =>
      rw [Scanner.stopAt_append_gap hstop h]
      exact congrArg (fun t => [t].filter _) (trim_append_right h)
    | some stop =>
      obtain ⟨t, c, rest⟩ := stop
      obtain ⟨rfl, m, hrun, hstep⟩ := Scanner.stopAt_eq_some.1 hstop
      have hstop' : selectors.stopAt (.plain 0) (t ++ c :: rest ++ gap) = some (t, c, rest ++ gap) :=
        Scanner.stopAt_eq_some.2 ⟨by simp, m, hrun, hstep⟩
      have hshorter : rest.length < n := by
        simp only [← hlength, List.length_append, List.length_cons]
        omega
      rw [hstop']
      simp only [ih rest.length hshorter rest rfl]

theorem trim_of_mem_splitSelectors (h : t ∈ splitSelectors s) : trim t = t ∧ t ≠ [] := by
  obtain ⟨hmem, hne⟩ := List.mem_filter.1 h
  obtain ⟨piece, -, rfl⟩ := List.mem_map.1 hmem
  exact ⟨trim_trim piece, by simpa using hne⟩

theorem splitSelectors_trim (s : Text) : splitSelectors (trim s) = splitSelectors s := by
  obtain ⟨gap, hgap, hs⟩ := exists_trim_append s
  calc splitSelectors (trim s)
      = splitSelectors (trim s ++ gap) := (splitSelectors_append_blanks hgap _).symm
    _ = splitSelectors (s.takeWhile isBlank ++ trimStart s) := by
        rw [splitSelectors_blanks (allBlank_takeWhile s), hs]
    _ = splitSelectors s := by rw [trimStart_append]

/-! ## Blanks around a sheet -/

/-- A node that is not a comment can begin with the text. -/
def Begins (t : Text) : Prop := ∀ c ∈ t.head?, isBlank c = false ∧ c ∉ ("\x7d/" : Text)

/-- Nothing but a prelude begins with a character that is neither an ASCII blank nor a mark. -/
theorem start_of_not_mem (hblank : isAsciiBlank c = false) (hc : c ∉ ("\x7d/" : Text)) (t : Text) :
    (isAsciiBlank c || c == '\x7d') = false ∧ after? "/*" (c :: t) = none := by
  obtain ⟨hbrace, hslash⟩ : c ≠ '\x7d' ∧ c ≠ '/' := by simpa using hc
  exact ⟨by simp [hblank, hbrace], by simp [after?, Ne.symm hslash]⟩

theorem isAsciiBlank_of_isBlank (h : isBlank c = false) : isAsciiBlank c = false :=
  Bool.eq_false_iff.2 fun hc => Bool.false_ne_true (h.symm.trans (isBlank_of_isAsciiBlank hc))

theorem Begins.start (h : Begins (c :: t)) :
    (isAsciiBlank c || c == '\x7d') = false ∧ after? "/*" (c :: t) = none :=
  start_of_not_mem (isAsciiBlank_of_isBlank (h c rfl).1) (h c rfl).2 t

namespace Sheet

/-- Blanks before a node are passed over, those too that are not ASCII. -/
theorem parse_blanks (h : allBlank gap = true) (hs : Begins (c :: s)) :
    parse (gap ++ c :: s) = parse (c :: s) := by
  induction gap with
  | nil => rfl
  | cons d gap ih =>
    obtain ⟨hd, hgap⟩ : isBlank d = true ∧ allBlank gap = true := by simpa using h
    have hne : d ∉ ("\x7d/" : Text) := by
      have hmarks : ∀ e ∈ ("\x7d/" : Text), isBlank e = false := by decide
      exact fun hm => Bool.false_ne_true ((hmarks d hm).symm.trans hd)
    cases hascii : isAsciiBlank d with
    | true =>
      rw [List.cons_append, parse, if_pos (by simp [hascii])]
      exact ih hgap
    | false =>
      obtain ⟨hstart, hcomment⟩ := start_of_not_mem hascii hne (gap ++ c :: s)
      obtain ⟨hstart', hcomment'⟩ := hs.start
      have hread := preludeEnd?_blanks h (c :: s)
      have htrim (u : Text) : trim (d :: gap ++ u) = trim u := trim_append_left h
      cases hprelude : preludeEnd? none 0 (c :: s) with
      | none =>
        rw [hprelude, Option.map_none] at hread
        rw [parse_of_no_prelude hstart' hcomment' hprelude]
        refine (parse_of_no_prelude hstart hcomment hread).trans ?_
        rw [← List.cons_append, htrim]
      | some found =>
        obtain ⟨prelude, stop, body⟩ := found
        rw [hprelude, Option.map_some] at hread
        cases stop with
        | statement =>
          rw [parse_statement hstart' hcomment' hprelude]
          refine (parse_statement hstart hcomment hread).trans ?_
          rw [htrim]
        | block =>
          cases hbody : blockEnd? .plain 0 body with
          | none =>
            rw [parse_of_open_block hstart' hcomment' hprelude hbody]
            refine (parse_of_open_block hstart hcomment hread hbody).trans ?_
            rw [← List.cons_append, htrim]
          | some found =>
            obtain ⟨inner, rest⟩ := found
            by_cases hat : (trim prelude).head? = some '@'
            · obtain ⟨name, hname⟩ := List.head?_eq_some_iff.1 hat
              have hname' := (htrim prelude).trans hname
              cases hgroup : groupNames.contains (atRuleName name) with
              | true =>
                rw [parse_group hstart' hcomment' hprelude hbody hname hgroup]
                refine (parse_group hstart hcomment hread hbody hname' hgroup).trans ?_
                rw [htrim]
              | false =>
                rw [parse_block hstart' hcomment' hprelude hbody hname hgroup]
                refine (parse_block hstart hcomment hread hbody hname' hgroup).trans ?_
                rw [List.append_assoc, List.append_assoc, htrim, List.append_assoc]
            · rw [parse_rule hstart' hcomment' hprelude hbody hat]
              refine (parse_rule hstart hcomment hread hbody (by rwa [htrim])).trans ?_
              rw [htrim]

/-- Blanks are read as an empty sheet. -/
theorem parse_of_allBlank (h : allBlank gap = true) : parse gap = [] := by
  induction gap with
  | nil => exact parse_nil
  | cons d gap ih =>
    obtain ⟨hd, hgap⟩ : isBlank d = true ∧ allBlank gap = true := by simpa using h
    cases hascii : isAsciiBlank d with
    | true =>
      rw [parse, if_pos (by simp [hascii])]
      exact ih hgap
    | false =>
      have hne : d ∉ ("\x7d/" : Text) := by
        have hmarks : ∀ e ∈ ("\x7d/" : Text), isBlank e = false := by decide
        exact fun hm => Bool.false_ne_true ((hmarks d hm).symm.trans hd)
      obtain ⟨hstart, hcomment⟩ := start_of_not_mem hascii hne gap
      have hread : preludeEnd? none 0 (d :: gap) = none := by
        have := preludeEnd?_append_blanks (s := []) (by simp [preludeEnd?]) h
        rwa [List.nil_append] at this
      rw [parse_of_no_prelude hstart hcomment hread, trim_of_allBlank h]
      rfl

/-- Blanks behind a sheet change nothing about its rules. -/
theorem rules_append_blanks (h : allBlank gap = true) (s : Text) :
    rules (parse (s ++ gap)) = rules (parse s) := by
  have hlacks {mark : Text} (hmark : ∀ c ∈ mark, isBlank c = false) : ∀ c ∈ gap, c ∉ mark :=
    fun c hc hm => Bool.false_ne_true ((hmark c hm).symm.trans (isBlank_of_mem h hc))
  have hopening {c : Char} {s : Text} {body? : Option Text} (ha : after? "/*" (c :: s) = body?) :
      after? "/*" (c :: (s ++ gap)) = body?.map (· ++ gap) := by
    rw [← ha]
    exact after?_append_of_not_mem (hlacks (by decide)) (by simp) (c :: s)
  have hclosing {s : Text} {cut : Option (Text × Text)} (h : cut? "*/" s = cut) :
      cut? "*/" (s ++ gap) = cut.map fun found => (found.1, found.2 ++ gap) := by
    rw [← h]
    exact cut?_append_of_not_mem (hlacks (by decide)) (by simp) s
  have hread {s prelude rest : Text} {stop : PreludeEnd}
      (h : preludeEnd? none 0 s = some (prelude, stop, rest)) :
      preludeEnd? none 0 (s ++ gap) = some (prelude, stop, rest ++ gap) := by
    rw [preludeEnd?_eq_some h, List.append_assoc]
    exact preludeEnd?_of_run (run_of_preludeEnd? h) stop _
  have hblock {s inner rest : Text} (h : blockEnd? .plain 0 s = some (inner, rest)) :
      blockEnd? .plain 0 (s ++ gap) = some (inner, rest ++ gap) := by
    rw [blockEnd?_eq_some h, List.append_assoc]
    exact blockEnd?_of_blockEnd? h _
  fun_induction parse s with
  | case1 => rw [List.nil_append, parse_of_allBlank h]
  | case2 c s hc ih =>
    rw [List.cons_append, parse, if_pos hc, ih]
  | case3 c s hc body ha comment rest hcut _ ih =>
    rw [List.cons_append, parse_of_comment (Bool.eq_false_iff.2 hc) (hopening ha)
      (hclosing hcut), rules, rules,
      ih]
  | case4 c s hc body ha hcut =>
    rw [List.cons_append, parse_of_open_comment (Bool.eq_false_iff.2 hc) (hopening ha)
      (hclosing hcut)]
    simp [rules]
  | case5 c s hc ha hprelude htrim =>
    rw [List.cons_append, parse_of_no_prelude (Bool.eq_false_iff.2 hc) (hopening ha)
      (preludeEnd?_append_blanks hprelude h)]
    split <;> simp [rules]
  | case6 c s hc ha hprelude htrim =>
    rw [List.cons_append, parse_of_no_prelude (Bool.eq_false_iff.2 hc) (hopening ha)
      (preludeEnd?_append_blanks hprelude h)]
    split <;> simp [rules]
  | case7 c s hc ha prelude rest hprelude _ ih =>
    rw [List.cons_append, parse_statement (Bool.eq_false_iff.2 hc) (hopening ha)
      (hread hprelude), rules, rules, ih]
  | case8 c s hc ha prelude body hprelude hbody =>
    rw [List.cons_append, parse_of_open_block (Bool.eq_false_iff.2 hc) (hopening ha)
      (hread hprelude) (blockEnd?_append_blanks hbody h)]
    simp [rules]
  | case9 c s hc ha prelude body hprelude inner rest hbody _ name hname hgroup _ ih =>
    rw [List.cons_append, parse_group (Bool.eq_false_iff.2 hc) (hopening ha)
      (hread hprelude) (hblock hbody) hname hgroup, rules, rules, ih]
  | case10 c s hc ha prelude body hprelude inner rest hbody _ name hname hgroup ih =>
    rw [List.cons_append, parse_block (Bool.eq_false_iff.2 hc) (hopening ha)
      (hread hprelude) (hblock hbody) hname
      (Bool.eq_false_iff.2 hgroup), rules, rules, ih]
  | case11 c s hc ha prelude body hprelude inner rest hbody _ hname ih =>
    rw [List.cons_append, parse_rule (Bool.eq_false_iff.2 hc) (hopening ha)
      (hread hprelude) (hblock hbody), rules, rules, ih]
    intro hat
    obtain ⟨name, hat⟩ := List.head?_eq_some_iff.1 hat
    exact hname name hat

end Sheet

end WidgetCompiler.Style
