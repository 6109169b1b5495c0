import WidgetCompiler.Proofs.Style.Reading
import WidgetCompiler.Proofs.Text.Pieces
import WidgetCompiler.Proofs.Text.Run

/-!
# Sheets are read back

A sheet is well-formed if each of its nodes reads as one node: selectors and conditions that can
stand in a prelude, declarations on one line, and verbatim pieces that are a comment, a statement or
a block (`Sheet.WellFormed`).  Whatever is written of such a sheet is passed over as a whole in a block
(`whole_renderLines`), so the end of a group is found however deep the groups in it are nested, and
reading gives back the nodes in front of anything else (`parse_joinLines_renderLines`).
-/

namespace WidgetCompiler.Style

open Text

variable {c : Char} {s t rest tail indent : Text} {r : Rule} {ns : List Node}

/-! ## Well-formed sheets -/

/-- Whether the commas of a text behind `depth` open brackets all stand within brackets. -/
def commasInside : Nat → Text → Bool
  | _, [] => true
  | depth, c :: t =>
    if c = '(' ∨ c = '[' then commasInside (depth + 1) t
    else if c = ')' ∨ c = ']' then commasInside (depth - 1) t
    else (c != ',' || depth != 0) && commasInside depth t

/-- What is read as a whole before the mark that ends a prelude. -/
structure IsPrelude (t : Text) : Prop extends InPrelude t where
  ne_nil : t ≠ []
  trimmed : trim t = t

/-- A selector as it can stand in a list. -/
structure IsSelector (t : Text) : Prop extends IsPrelude t where
  brackets : Balanced '[' ']' t
  commas : commasInside 0 t = true
  head : t.head? ≠ some '@'

/-- Declarations on one line, perhaps none. -/
structure IsDeclarations (t : Text) : Prop where
  line : '\n' ∉ t
  trimmed : trim t = t
  marks : ∀ c ∈ t, c ∉ ("\x7b\x7d\"'" : Text)
  comment : Lacks "/*" t

/-- A rule that is read as it is written. -/
structure Rule.WellFormed (r : Rule) : Prop where
  ne_nil : r.selectors ≠ []
  selectors : ∀ t ∈ r.selectors, IsSelector t
  declarations : IsDeclarations r.declarations

/-- The prelude of an at-rule, whose name ends at a blank, at a parenthesis or with the prelude. -/
structure IsAtRule (name t : Text) : Prop extends IsPrelude t where
  run : ∀ c ∈ name, isBlank c = false ∧ c ≠ '('
  named : ∃ rest, t = '@' :: (name ++ rest) ∧ ∀ c ∈ rest.head?, isBlank c = true ∨ c = '('

/-- The condition of a group. -/
def IsCondition (t : Text) : Prop := ∃ name, IsAtRule name t ∧ lowerAscii name ∈ groupNames

/-- A piece that is kept as it was written, and is kept in one. -/
inductive IsVerbatim : Text → Prop
  | comment {t : Text} : Lacks "*/" t → IsVerbatim ("/*" ++ t ++ "*/")
  | statement {t : Text} : IsPrelude t → IsVerbatim (t ++ [';'])
  | block {name t gap body : Text} : IsAtRule name t → lowerAscii name ∉ groupNames →
      (∀ c ∈ gap, isAsciiBlank c = true) → (∀ c ∈ body, isQuote c = false) → Lacks "/*" body →
      Balanced '\x7b' '\x7d' body → IsVerbatim (t ++ gap ++ '\x7b' :: (body ++ ['\x7d']))

/-- All nodes of a sheet are read as they are written. -/
inductive Sheet.WellFormed : List Node → Prop
  | nil : WellFormed []
  | rule {r : Rule} {ns : List Node} : r.WellFormed → WellFormed ns → WellFormed (.rule r :: ns)
  | group {condition : Text} {children ns : List Node} : IsCondition condition →
      WellFormed children → WellFormed ns → WellFormed (.group condition children :: ns)
  | raw {t : Text} {ns : List Node} : IsVerbatim t → WellFormed ns → WellFormed (.raw t :: ns)

/-! ## Lists of selectors -/

theorem splitCommas_ne_nil (quote : Option Char) (depth : Nat) (s : Text) :
    splitCommas quote depth s ≠ [] := by
  fun_cases splitCommas quote depth s with
  | case1 => simp
  | case6 => simp
  | _ => exact extendFirst_ne_nil _ _

/-- A selector stands in the first piece as a whole. -/
theorem splitCommas_append_of_closes {parens squares : Nat} (hmarks : ∀ c ∈ t, c ∉ preludeMarks)
    (hparens : closes '(' ')' parens t = true) (hsquares : closes '[' ']' squares t = true)
    (hcommas : commasInside (parens + squares) t = true) (rest : Text) :
    ∃ piece pieces, splitCommas none 0 rest = piece :: pieces
      ∧ splitCommas none (parens + squares) (t ++ rest) = (t ++ piece) :: pieces := by
  induction t generalizing parens squares with
  | nil =>
    obtain rfl : parens = 0 := by simpa [closes] using hparens
    obtain rfl : squares = 0 := by simpa [closes] using hsquares
    obtain ⟨piece, pieces, h⟩ := List.exists_cons_of_ne_nil (splitCommas_ne_nil none 0 rest)
    exact ⟨piece, pieces, h, h⟩
  | cons c t ih =>
    have hmarks' : ∀ d ∈ t, d ∉ preludeMarks := fun d hd => hmarks d (by simp [hd])
    have hquote : ¬ isQuote c = true := by
      have hc := hmarks c (by simp)
      intro h
      rcases Bool.or_eq_true_iff.1 h with h | h <;> rw [eq_of_beq h] at hc <;> exact hc (by decide)
    -- where the first piece goes on behind the character, it begins with it
    have hstep {before : Nat} (parens' squares' : Nat) (hparens : closes '(' ')' parens' t = true)
        (hsquares : closes '[' ']' squares' t = true)
        (hcommas : commasInside (parens' + squares') t = true)
        (h : splitCommas none before (c :: (t ++ rest))
          = extendFirst c (splitCommas none (parens' + squares') (t ++ rest))) :
        ∃ piece pieces, splitCommas none 0 rest = piece :: pieces
          ∧ splitCommas none before (c :: t ++ rest) = (c :: t ++ piece) :: pieces := by
      obtain ⟨piece, pieces, hrest, ht⟩ := ih hmarks' hparens hsquares hcommas
      refine ⟨piece, pieces, hrest, ?_⟩
      rw [List.cons_append, h, ht, extendFirst_cons, List.cons_append]
    rw [closes] at hparens hsquares
    rw [commasInside] at hcommas
    by_cases hopen : c = '('
    · subst hopen
      refine hstep (parens + 1) squares (by simpa using hparens)
        (by simpa using hsquares) ?_ ?_
      · simpa [Nat.add_right_comm] using hcommas
      · rw [splitCommas, Nat.add_right_comm]
        rfl
    by_cases hopen' : c = '['
    · subst hopen'
      refine hstep parens (squares + 1) (by simpa using hparens)
        (by simpa using hsquares) ?_ ?_
      · simpa [Nat.add_assoc] using hcommas
      · rw [splitCommas, ← Nat.add_assoc]
        rfl
    by_cases hclose : c = ')'
    · subst hclose
      obtain ⟨hdepth, hparens⟩ : parens ≠ 0 ∧ closes '(' ')' (parens - 1) t = true := by
        simpa using hparens
      have hless : parens + squares - 1 = parens - 1 + squares := by omega
      refine hstep (parens - 1) squares hparens
        (by simpa using hsquares) ?_ ?_
      · simpa [← hless] using hcommas
      · rw [splitCommas, ← hless]
        rfl
    by_cases hclose' : c = ']'
    · subst hclose'
      obtain ⟨hdepth, hsquares⟩ : squares ≠ 0 ∧ closes '[' ']' (squares - 1) t = true := by
        simpa using hsquares
      have hless : parens + squares - 1 = parens + (squares - 1) := by omega
      refine hstep parens (squares - 1) (by simpa using hparens)
        hsquares ?_ ?_
      · simpa [← hless] using hcommas
      · rw [splitCommas, ← hless]
        rfl
    have hopens : ¬ (c = '(' ∨ c = '[') := not_or.2 ⟨hopen, hopen'⟩
    have hcloses : ¬ (c = ')' ∨ c = ']') := not_or.2 ⟨hclose, hclose'⟩
    rw [if_neg hopens, if_neg hcloses] at hcommas
    obtain ⟨hcomma, hcommas⟩ : ¬ (c = ',' ∧ parens + squares = 0)
        ∧ commasInside (parens + squares) t = true := by
      simpa [imp_iff_not_or] using hcommas
    refine hstep parens squares (by simpa [hopen, hclose] using hparens) (by simpa [hopen', hclose'] using hsquares)
      hcommas ?_
    rw [splitCommas]
    exact (if_neg hquote).trans ((if_neg hopens).trans ((if_neg hcloses).trans (if_neg hcomma)))

theorem IsSelector.splitCommas_append (h : IsSelector t) (rest : Text) :
    ∃ piece pieces, splitCommas none 0 rest = piece :: pieces
      ∧ splitCommas none 0 (t ++ rest) = (t ++ piece) :: pieces :=
  splitCommas_append_of_closes h.marks h.parentheses h.brackets h.commas rest

theorem splitCommas_join {first : Text} {others : List Text}
    (h : ∀ t ∈ first :: others, IsSelector t) :
    splitCommas none 0 (join ", " (first :: others)) = first :: others.map (' ' :: ·) := by
  induction others generalizing first with
  | nil =>
    obtain ⟨piece, pieces, hnil, hsplit⟩ := (h first (by simp)).splitCommas_append []
    obtain ⟨rfl, rfl⟩ : [] = piece ∧ [] = pieces := by simpa [splitCommas] using hnil
    rw [join]
    simpa using hsplit
  | cons second others ih =>
    have hbehind := ih fun t ht => h t (List.mem_cons_of_mem _ ht)
    have hspace : splitCommas none 0 (' ' :: join ", " (second :: others))
        = (second :: others).map (' ' :: ·) := by
      rw [splitCommas, hbehind]
      rfl
    obtain ⟨piece, pieces, hcomma, hsplit⟩ :=
      (h first (by simp)).splitCommas_append (',' :: ' ' :: join ", " (second :: others))
    obtain ⟨rfl, rfl⟩ : [] = piece
        ∧ splitCommas none 0 (' ' :: join ", " (second :: others)) = pieces := by
      simpa [splitCommas, isQuote] using hcomma
    rw [join, List.append_assoc, ← hspace]
    simpa using hsplit

/-- A list of selectors is taken apart into them. -/
theorem splitSelectors_join {selectors : List Text} (hne : selectors ≠ [])
    (h : ∀ t ∈ selectors, IsSelector t) : splitSelectors (join ", " selectors) = selectors := by
  obtain ⟨first, others, rfl⟩ := List.exists_cons_of_ne_nil hne
  have htrim : (first :: others.map (' ' :: ·)).map trim = first :: others := by
    have hothers : (others.map (' ' :: ·)).map trim = others := by
      rw [List.map_map]
      refine (List.map_congr_left fun t ht => ?_).trans (List.map_id others)
      exact (trim_append_left (s := [' ']) rfl).trans (h t (List.mem_cons_of_mem _ ht)).trimmed
    rw [List.map_cons, (h first List.mem_cons_self).trimmed, hothers]
  rw [splitSelectors, splitCommas_join h, htrim, List.filter_eq_self]
  exact fun t ht => by simpa using (h t ht).ne_nil

/-- A list of selectors stands as a whole before a block. -/
theorem isPrelude_join {selectors : List Text} (hne : selectors ≠ [])
    (h : ∀ t ∈ selectors, IsSelector t) : IsPrelude (join ", " selectors) where
  toInPrelude := by
    fun_induction join ", " selectors with
    | case1 => exact absurd rfl hne
    | case2 t => exact (h t (by simp)).toInPrelude
    | case3 t u ts ih =>
      have hcomma : InPrelude ", " := ⟨by decide, by decide⟩
      exact ((h t (by simp)).toInPrelude.append hcomma).append
        (ih (by simp) fun v hv => h v (List.mem_cons_of_mem _ hv))
  ne_nil := by
    obtain ⟨first, others, rfl⟩ := List.exists_cons_of_ne_nil hne
    exact join_ne_nil (h first List.mem_cons_self).ne_nil others
  trimmed := trim_join ", " fun t ht => ⟨(h t ht).ne_nil, (h t ht).trimmed⟩

/-! ## Declarations -/

/-- A line with blanks around it. -/
theorem oneLine_of_not_mem (h : '\n' ∉ t) :
    oneLine t = trim t := by
  have hsplit : splitOn (· == '\n') t = [t] :=
    splitOn_eq_singleton fun c hc => beq_eq_false_iff_ne.2 fun e => h (e ▸ hc)
  rw [oneLine, lines, hsplit]
  cases t with
  | nil => rfl
  | cons c t =>
    cases htrim : trim (c :: t) with
    | nil => simp [htrim, join]
    | cons d u => simp [htrim, join]

/-- A trimmed line between blanks. -/
theorem oneLine_padded (hline : '\n' ∉ t) (htrim : trim t = t) :
    oneLine (' ' :: t ++ [' ']) = t := by
  have hpadded : '\n' ∉ ' ' :: t ++ [' '] := by simp [hline]
  rw [oneLine_of_not_mem hpadded, trim_append_right rfl]
  exact (trim_append_left (s := [' ']) rfl).trans htrim

namespace IsDeclarations

/-- Declarations between blanks are passed over as a whole. -/
theorem whole (h : IsDeclarations t) : Whole (' ' :: t ++ [' ']) := by
  have hspace : Whole [' '] := .of_not_mem (by decide)
  have hwhole : Whole (t ++ [' ']) := by
    refine .concat (fun c hc => ?_) h.comment (.of_not_mem ?_ ?_) (by decide)
    · have := h.marks c hc
      simp_all [isQuote]
    · exact fun hm => h.marks _ hm (by decide)
    · exact fun hm => h.marks _ hm (by decide)
  exact hspace.append hwhole

theorem oneLine_eq (h : IsDeclarations t) : oneLine (' ' :: t ++ [' ']) = t :=
  oneLine_padded h.line h.trimmed

end IsDeclarations

/-- What stands between the braces of a rule that is written. -/
def Rule.inner (r : Rule) : Text :=
  if r.declarations = [] then [] else ' ' :: r.declarations ++ [' ']

theorem Rule.render_eq (r : Rule) :
    r.render = join ", " r.selectors ++ [' '] ++ '\x7b' :: (r.inner ++ ['\x7d']) := by
  rw [render, inner]
  by_cases hempty : r.declarations = [] <;> simp [hempty]

/-- What a rule holds between its braces is passed over as a whole and read as its declarations. -/
theorem Rule.WellFormed.exists_inner (h : r.WellFormed) : ∃ inner,
    r.render = join ", " r.selectors ++ [' '] ++ '\x7b' :: (inner ++ ['\x7d']) ∧ Whole inner
      ∧ oneLine inner = r.declarations := by
  refine ⟨r.inner, r.render_eq, ?_⟩
  rw [Rule.inner]
  split
  · next hempty => exact ⟨.nil, by rw [hempty]; rfl⟩
  · exact ⟨h.declarations.whole, h.declarations.oneLine_eq⟩

/-! ## What is written is passed over as a whole -/

theorem whole_of_blank (h : ∀ c ∈ t, isAsciiBlank c = true) : Whole t := by
  have hmarks : ∀ c ∈ ("/\x7b\x7d\"'" : Text), isAsciiBlank c = false := by decide
  exact .of_not_mem fun c hc hm => Bool.false_ne_true ((hmarks c hm).symm.trans (h c hc))

/-- Blanks can stand in a prelude. -/
theorem inPrelude_of_blank (h : ∀ c ∈ t, isAsciiBlank c = true) : InPrelude t where
  marks c hc hm := by
    have hmarks : ∀ c ∈ preludeMarks, isAsciiBlank c = false := by decide
    exact Bool.false_ne_true ((hmarks c hm).symm.trans (h c hc))
  parentheses := .of_not_mem (fun hm => absurd (h _ hm) (by decide))
    (fun hm => absurd (h _ hm) (by decide))

theorem Rule.WellFormed.whole (h : r.WellFormed) : Whole r.render := by
  obtain ⟨inner, hrender, hinner, -⟩ := h.exists_inner
  have hselectors : Whole (join ", " r.selectors) :=
    .of_inPrelude (isPrelude_join h.ne_nil h.selectors).toInPrelude
  have hspace : Whole [' '] := .of_not_mem (by decide)
  have hblock : Whole ('\x7b' :: (inner ++ ['\x7d'])) := .braced fun _ _ => hinner _ _
  rw [hrender]
  exact (hselectors.append hspace).append hblock

theorem IsVerbatim.whole (h : IsVerbatim t) : Whole t := by
  cases h with
  | comment hlacks => exact .comment hlacks
  | statement ht => exact (Whole.of_inPrelude ht.toInPrelude).append (.of_not_mem (by decide))
  | block ht _ hgap hquotes hcomment hbraces =>
    refine ((Whole.of_inPrelude ht.toInPrelude).append (whole_of_blank hgap)).append ?_
    exact .braced fun _ _ => blockEnd?_append_of_balanced hquotes hcomment hbraces (by simp) _

namespace Sheet

theorem isAsciiBlank_deeper (h : ∀ c ∈ indent, isAsciiBlank c = true) :
    ∀ c ∈ indent ++ "  ", isAsciiBlank c = true := by
  intro c hc
  rcases List.mem_append.1 hc with hc | hc
  · exact h c hc
  · obtain rfl : c = ' ' := by simpa using hc
    rfl

/-- What stands between the braces of a group. -/
def groupBody (indent : Text) (children : List Node) : Text :=
  '\n' :: joinLines (renderLines (indent ++ "  ") children) ++ indent

theorem joinLines_renderLines_group (indent condition : Text) (children ns : List Node) :
    joinLines (renderLines indent (.group condition children :: ns))
      = indent ++ (condition ++ [' '] ++ '\x7b' :: (groupBody indent children ++ ['\x7d']))
          ++ '\n' :: joinLines (renderLines indent ns) := by
  rw [renderLines, List.cons_append, joinLines, joinLines_append, joinLines, groupBody]
  simp

theorem whole_groupBody {children : List Node} (hindent : ∀ c ∈ indent, isAsciiBlank c = true)
    (h : Whole (joinLines (renderLines (indent ++ "  ") children))) :
    Whole (groupBody indent children) := by
  have hfeed : Whole ['\n'] := whole_of_blank (by decide)
  exact (hfeed.append h).append (whole_of_blank hindent)

/-- So the brace that closes a group is found, however deep the groups in it are nested. -/
theorem whole_renderLines (hindent : ∀ c ∈ indent, isAsciiBlank c = true) (h : WellFormed ns) :
    Whole (joinLines (renderLines indent ns)) := by
  have hfeed : Whole ['\n'] := .of_not_mem (by decide)
  induction h generalizing indent with
  | nil =>
    rw [renderLines]
    exact .nil
  | rule hr _ ih =>
    rw [renderLines, joinLines, ← List.singleton_append]
    exact ((whole_of_blank hindent).append hr.whole).append (hfeed.append (ih hindent))
  | @group condition children ns hcondition _ _ ihc ih =>
    obtain ⟨name, hcondition, -⟩ := hcondition
    have hbody := whole_groupBody hindent (ihc (isAsciiBlank_deeper hindent))
    have hprelude : Whole (condition ++ [' ']) :=
      (Whole.of_inPrelude hcondition.toInPrelude).append (.of_not_mem (by decide))
    rw [joinLines_renderLines_group, ← List.singleton_append (l := joinLines _)]
    refine ((whole_of_blank hindent).append (hprelude.append ?_)).append (hfeed.append (ih hindent))
    exact .braced fun _ _ => hbody _ _
  | raw ht _ ih =>
    rw [renderLines, joinLines, ← List.singleton_append]
    exact ((whole_of_blank hindent).append ht.whole).append (hfeed.append (ih hindent))

/-! ## Reading what is written -/

/-- A prelude begins a node, and no comment. -/
theorem exists_cons_of_isPrelude (h : IsPrelude t) (s : Text) : ∃ c u, t ++ s = c :: u
    ∧ (isAsciiBlank c || c == '\x7d') = false ∧ after? "/*" (c :: u) = none := by
  obtain ⟨c, u, rfl⟩ := List.exists_cons_of_ne_nil h.ne_nil
  have hblank : isBlank c = false := (trim_eq_self_iff.1 h.trimmed).1 c rfl
  have hmark : c ∉ preludeMarks := h.marks c (by simp)
  have hbrace : c ≠ '\x7d' := fun e => hmark (e ▸ by decide)
  have hslash : c ≠ '/' := fun e => hmark (e ▸ by decide)
  refine ⟨c, u ++ s, rfl, ?_, by simp [after?, Ne.symm hslash]⟩
  rw [beq_eq_false_iff_ne.2 hbrace, Bool.or_false, Bool.eq_false_iff]
  exact fun h => Bool.false_ne_true (hblank.symm.trans (isBlank_of_isAsciiBlank h))

/-- The name of an at-rule is read off its prelude. -/
theorem exists_name_of_isAtRule {name : Text} (h : IsAtRule name t) :
    ∃ u, t = '@' :: u ∧ atRuleName u = lowerAscii name := by
  obtain ⟨rest, rfl, hrest⟩ := h.named
  refine ⟨_, rfl, congrArg lowerAscii (takeWhile_run (fun c hc => ?_) fun c hc => ?_)⟩
  · obtain ⟨hblank, hparen⟩ := h.run c hc
    simp [hblank, hparen]
  · rcases hrest c hc with hblank | rfl
    · simp [hblank]
    · simp

/-- A prelude with a block behind it, and what reading finds there. -/
theorem exists_block_of_isPrelude {gap : Text} (h : IsPrelude t)
    (hgap : ∀ c ∈ gap, isAsciiBlank c = true) (inner rest : Text) : ∃ c u,
    t ++ gap ++ '\x7b' :: (inner ++ ['\x7d']) ++ rest = c :: u
      ∧ (isAsciiBlank c || c == '\x7d') = false ∧ after? "/*" (c :: u) = none
      ∧ preludeEnd? none 0 (c :: u) = some (t ++ gap, .block, inner ++ '\x7d' :: rest)
      ∧ trim (t ++ gap) = t := by
  have hshape : t ++ gap ++ '\x7b' :: (inner ++ ['\x7d']) ++ rest
      = t ++ gap ++ PreludeEnd.block.char :: (inner ++ '\x7d' :: rest) := by
    simp [PreludeEnd.char]
  obtain ⟨c, u, hcons, hstart, hcomment⟩ :=
    exists_cons_of_isPrelude h (gap ++ PreludeEnd.block.char :: (inner ++ '\x7d' :: rest))
  rw [← List.append_assoc] at hcons
  refine ⟨c, u, hshape.trans hcons, hstart, hcomment, ?_, ?_⟩
  · rw [← hcons]
    exact preludeEnd?_append (h.toInPrelude.append (inPrelude_of_blank hgap)) .block _
  · have hblank : allBlank gap = true :=
      List.all_eq_true.2 fun c hc => isBlank_of_isAsciiBlank (hgap c hc)
    rw [trim_append_right hblank, h.trimmed]

theorem isAsciiBlank_space : ∀ c ∈ ([' '] : Text), isAsciiBlank c = true := by decide

theorem parse_render_rule (h : r.WellFormed) (rest : Text) :
    parse (r.render ++ rest) = .rule r :: parse rest := by
  obtain ⟨inner, hrender, hinner, hdeclarations⟩ := h.exists_inner
  obtain ⟨c, u, hcons, hstart, hcomment, hprelude, htrim⟩ := exists_block_of_isPrelude
    (isPrelude_join h.ne_nil h.selectors) isAsciiBlank_space inner rest
  have hhead : (join ", " r.selectors).head? ≠ some '@' := by
    obtain ⟨first, others, hselectors⟩ := List.exists_cons_of_ne_nil h.ne_nil
    have hfirst := h.selectors first (by simp [hselectors])
    rw [hselectors, head?_join hfirst.ne_nil]
    exact hfirst.head
  rw [hrender, hcons, parse_rule hstart hcomment hprelude (blockEnd?_whole hinner rest)
    (by rwa [htrim]), htrim, splitSelectors_join h.ne_nil h.selectors, hdeclarations]

/-- A condition with the nodes below it. -/
theorem parse_condition {condition inner : Text} (h : IsCondition condition) (hinner : Whole inner)
    (rest : Text) :
    parse (condition ++ [' '] ++ '\x7b' :: (inner ++ ['\x7d']) ++ rest)
      = .group condition (parse inner) :: parse rest := by
  obtain ⟨name, h, hgroup⟩ := h
  obtain ⟨u, hu, hname⟩ := exists_name_of_isAtRule h
  obtain ⟨c, v, hcons, hstart, hcomment, hprelude, htrim⟩ :=
    exists_block_of_isPrelude h.toIsPrelude isAsciiBlank_space inner rest
  rw [hcons, parse_group hstart hcomment hprelude (blockEnd?_whole hinner rest) (htrim.trans hu)
    (by simpa [hname] using hgroup), htrim]

theorem parse_verbatim (h : IsVerbatim t) (rest : Text) :
    parse (t ++ rest) = .raw t :: parse rest := by
  cases h with
  | comment hlacks => exact parse_comment hlacks rest
  | @statement t ht =>
    obtain ⟨c, u, hcons, hstart, hcomment⟩ := exists_cons_of_isPrelude ht (';' :: rest)
    have hprelude := preludeEnd?_append ht.toInPrelude .statement rest
    rw [PreludeEnd.char, hcons] at hprelude
    rw [List.append_assoc, List.singleton_append, hcons, parse_statement hstart hcomment hprelude,
      ht.trimmed]
  | @block name t gap body ht hname hgap hquotes hcomment hbraces =>
    obtain ⟨u, hu, hread⟩ := exists_name_of_isAtRule ht
    obtain ⟨c, v, hcons, hstart, hnone, hprelude, htrim⟩ :=
      exists_block_of_isPrelude ht.toIsPrelude hgap body rest
    have hbody : blockEnd? .plain 0 (body ++ '\x7d' :: rest) = some (body, rest) := by
      rw [blockEnd?_append_of_balanced hquotes hcomment hbraces (by simp)]
      simp [blockEnd?, isQuote]
    have hkept : trim (t ++ gap ++ '\x7b' :: (body ++ ['\x7d']))
        = t ++ gap ++ '\x7b' :: (body ++ ['\x7d']) := by
      rw [hu]
      simpa using trim_cons_concat (c := '@') (d := '\x7d') rfl rfl (u ++ gap ++ '\x7b' :: body)
    rw [hcons, parse_block hstart hnone hprelude hbody (htrim.trans hu) ?_, List.append_assoc,
      List.cons_append, hkept]
    simpa [hread] using hname

/-- Reading gives back the nodes that were written, whatever follows them. -/
theorem parse_joinLines_renderLines (hindent : ∀ c ∈ indent, isAsciiBlank c = true)
    (h : WellFormed ns) (tail : Text) :
    parse (joinLines (renderLines indent ns) ++ tail) = ns ++ parse tail := by
  have hfeed : ∀ c ∈ (['\n'] : Text), isAsciiBlank c = true := by decide
  have hnext (s : Text) : parse ('\n' :: s) = parse s := parse_gap hfeed s
  induction h generalizing indent tail with
  | nil =>
    rw [renderLines]
    rfl
  | @rule r ns hr _ ih =>
    rw [renderLines, joinLines, List.append_assoc, List.append_assoc, parse_gap hindent,
      parse_render_rule hr, List.cons_append, hnext, ih hindent, List.cons_append]
  | @group condition children ns hcondition hchildren _ ihc ih =>
    have hdeeper := isAsciiBlank_deeper hindent
    have hbody := whole_groupBody hindent (whole_renderLines hdeeper hchildren)
    have hinner : parse (groupBody indent children) = children := by
      have hblank : parse indent = [] := by
        have := parse_gap hindent []
        rwa [List.append_nil, parse] at this
      rw [groupBody, List.cons_append, hnext, ihc hdeeper, hblank, List.append_nil]
    rw [joinLines_renderLines_group, List.append_assoc, List.append_assoc, parse_gap hindent,
      parse_condition hcondition hbody, hinner, List.cons_append, hnext, ih hindent,
      List.cons_append]
  | @raw t ns ht _ ih =>
    rw [renderLines, joinLines, List.append_assoc, List.append_assoc, parse_gap hindent,
      parse_verbatim ht, List.cons_append, hnext, ih hindent, List.cons_append]

/-- Reading undoes writing. -/
theorem parse_render {sheet : Sheet} (h : WellFormed sheet) : parse sheet.render = sheet := by
  have hread := parse_joinLines_renderLines (List.forall_mem_nil _) h []
  have hnil : parse [] = [] := by rw [parse]
  rwa [List.append_nil, hnil, List.append_nil] at hread

/-- A sheet with rules under two conditions, one within the other, and a piece of each kind that is
kept as it was written. -/
def cardSheet : Sheet :=
  [.raw "/* cards: .card \x7b \"it's\" \x7d */",
    .raw "@import url(base.css);",
    .group "@media print" [
      .rule ⟨[".card", "p:not(.note, [hidden])"], "color: red; margin: 0"⟩,
      .group "@SUPPORTS(display: grid)" [.raw "/* \x7b */", .rule ⟨["a > b"], []⟩]],
    .raw "@font-face \x7bsrc: url(card.woff)\x7d",
    .group "@layer" []]

theorem parse_render_cardSheet : WellFormed cardSheet ∧ parse cardSheet.render = cardSheet := by
  have hmedia : IsCondition "@media print" :=
    ⟨"media", ⟨⟨⟨by decide, by decide⟩, by decide, by decide⟩, by decide, " print", by decide,
      by decide⟩, by decide⟩
  have hsupports : IsCondition "@SUPPORTS(display: grid)" :=
    ⟨"SUPPORTS", ⟨⟨⟨by decide, by decide⟩, by decide, by decide⟩, by decide, "(display: grid)",
      by decide, by decide⟩, by decide⟩
  have hlayer : IsCondition "@layer" :=
    ⟨"layer", ⟨⟨⟨by decide, by decide⟩, by decide, by decide⟩, by decide, "", by decide, by decide⟩,
      by decide⟩
  have hcard : Rule.WellFormed ⟨[".card", "p:not(.note, [hidden])"], "color: red; margin: 0"⟩ := by
    refine ⟨by decide, List.forall_mem_cons.2 ⟨?_, List.forall_mem_singleton.2 ?_⟩, ?_⟩
    · exact ⟨⟨⟨by decide, by decide⟩, by decide, by decide⟩, by decide, by decide, by decide⟩
    · exact ⟨⟨⟨by decide, by decide⟩, by decide, by decide⟩, by decide, by decide, by decide⟩
    · exact ⟨by decide, by decide, by decide, by decide⟩
  have hchild : Rule.WellFormed ⟨["a > b"], []⟩ := by
    refine ⟨by decide, List.forall_mem_singleton.2 ?_, ?_⟩
    · exact ⟨⟨⟨by decide, by decide⟩, by decide, by decide⟩, by decide, by decide, by decide⟩
    · exact ⟨by decide, by decide, by decide, by decide⟩
  have himport : IsVerbatim "@import url(base.css);" :=
    .statement (t := "@import url(base.css)") ⟨⟨by decide, by decide⟩, by decide, by decide⟩
  have hface : IsVerbatim "@font-face \x7bsrc: url(card.woff)\x7d" := by
    have hname : IsAtRule "font-face" "@font-face" :=
      ⟨⟨⟨by decide, by decide⟩, by decide, by decide⟩, by decide, "", by decide, by decide⟩
    have hbody : Balanced '\x7b' '\x7d' "src: url(card.woff)" := by decide
    exact .block hname (by decide) isAsciiBlank_space (by decide) (by decide) hbody
  have hcomment : IsVerbatim "/* cards: .card \x7b \"it's\" \x7d */" :=
    .comment (t := " cards: .card \x7b \"it's\" \x7d ") (by decide)
  have hbrace : IsVerbatim "/* \x7b */" := .comment (t := " \x7b ") (by decide)
  have h : WellFormed cardSheet :=
    .raw hcomment (.raw himport (.group hmedia
      (.rule hcard (.group hsupports (.raw hbrace (.rule hchild .nil)) .nil))
      (.raw hface (.group hlayer .nil .nil))))
  exact ⟨h, parse_render h⟩

end Sheet

end WidgetCompiler.Style
