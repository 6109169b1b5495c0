import WidgetCompiler.Proofs.Validation.Leading

/-!
# How far the check of modes reads

The check of modes begins behind the first line that looks like the declaration of the method, and it
ends at a brace that stands no further in than that line.  `Watched ls` says that it has begun in the
given lines and has not ended in them.  What stands behind such lines is read: a `<?php` on a line of
its own leads to code, whatever was before, so a second one behind it is found
(`mem_checkRenderModesFrom_of_watched`).  Behind lines in which the check has ended nothing is read
(`checkRenderModesFrom_of_not_watched`).

The lines of the method do not end it.  Those that are code may be read in either mode, as a delimiter
that stands in a literal misleads the check, but none of them begins with a brace that stands so far
out (`Steady`).  Those that are markup may begin with any brace, but they are read in markup: a plan has
no instruction in its markup, so from the `?>` before it the mode changes only where a statement is
printed, and there it changes back before the line ends (`GoesOn.turns`).
-/

namespace WidgetCompiler.Validation

open Text Markup Render Php

/-- Whether a line ends the method. -/
def endsMethod (indent : Nat) (inCode : Bool) (line : Text) : Bool :=
  inCode && (trim line).head? = some '\x7d' && indentWidth line ≤ indent

/-- No line ends the method, read from a mode on. -/
def GoesOn (indent : Nat) : Bool → List Text → Prop
  | _, [] => True
  | inCode, l :: ls => endsMethod indent inCode l = false ∧ GoesOn indent (codeAfter l inCode) ls

instance GoesOn.decidable (indent : Nat) :
    (inCode : Bool) → (ls : List Text) → Decidable (GoesOn indent inCode ls)
  | _, [] => .isTrue trivial
  | inCode, l :: ls =>
    have := GoesOn.decidable indent (codeAfter l inCode) ls
    inferInstanceAs (Decidable (_ ∧ _))

/-- Whether a line looks like the declaration of the method that shows the widget. -/
def declaresRender (line : Text) : Bool := Pattern.occursIn (methodNamed "render") line

theorem declaresRender_methodLine : declaresRender methodLine = true := by decide +kernel

/-- The first line that declares the method is one of these, and no line behind it ends the
method. -/
def Watched (ls : List Text) : Prop :=
  ∃ front declaration inside, ls = front ++ declaration :: inside
    ∧ (∀ l ∈ front, declaresRender l = false) ∧ declaresRender declaration = true
    ∧ GoesOn (indentWidth declaration) true inside

section

variable {indent number : Nat} {inCode : Bool} {previous first extra l s t x : Text}
variable {ls ls' : List Text} {bs : List BoundElement} {bindings : List Binding}

/-! ## Steps of the check -/

/-- The check reads on behind a line that does not end the method. -/
theorem exists_modeIssues_cons (number : Nat) (previous : Text)
    (h : endsMethod indent inCode first = false) :
    ∃ here previous', (trim first ≠ [] → previous' = trim first) ∧ ∀ rest,
      modeIssues indent number inCode previous (first :: rest)
        = here ++ modeIssues indent (number + 1) (codeAfter first inCode) previous' rest := by
  by_cases hempty : (trim first).isEmpty = true
  · have htags := tagFree_of_allBlank (allBlank_of_trim_eq_nil (List.isEmpty_iff.1 hempty))
    refine ⟨[], previous, fun hne => absurd (List.isEmpty_iff.1 hempty) hne, fun rest => ?_⟩
    rw [codeAfter_of_lacks htags.opening htags.closing, modeIssues]
    simp only [hempty, if_true, List.nil_append]
  · refine ⟨(if inCode then (problemInCode? previous (trim first)).toList else []).map
      (·.issueAt number first), trim first, fun _ => rfl, fun rest => ?_⟩
    have hgoes : ¬ (inCode && decide ((trim first).head? = some '\x7d')
        && decide (indentWidth first ≤ indent)) = true := Bool.not_eq_true _ ▸ h
    rw [modeIssues]
    simp only [hempty, hgoes, if_false, Bool.false_eq_true]

/-- A line that ends the method is the last one that is read. -/
theorem modeIssues_of_endsMethod (h : endsMethod indent inCode first = true) (rest : List Text) :
    modeIssues indent number inCode previous (first :: rest) = [] := by
  have hempty : (trim first).isEmpty = false := by
    cases ht : trim first with
    | nil => simp [endsMethod, ht] at h
    | cons c t => rfl
  rw [endsMethod] at h
  rw [modeIssues]
  simp only [hempty, h, if_true, Bool.false_eq_true, if_false]

/-- The check reads on behind lines that do not end the method. -/
theorem GoesOn.exists_modeIssues (h : GoesOn indent inCode ls) (number : Nat) (previous : Text) :
    ∃ issues inCode' previous', ∀ rest, modeIssues indent number inCode previous (ls ++ rest)
      = issues ++ modeIssues indent (number + ls.length) inCode' previous' rest := by
  induction ls generalizing inCode number previous with
  | nil => exact ⟨[], inCode, previous, fun _ => rfl⟩
  | cons l ls ih =>
    obtain ⟨here, previous', -, hstep⟩ := exists_modeIssues_cons number previous h.1
    obtain ⟨issues, inCode', previous'', hrun⟩ := ih h.2 (number + 1) previous'
    refine ⟨here ++ issues, inCode', previous'', fun rest => ?_⟩
    rw [List.cons_append, hstep, hrun, List.append_assoc, List.length_cons, Nat.add_assoc,
      Nat.add_comm 1]

/-- What stands behind a line that ends the method makes no difference. -/
theorem exists_modeIssues_of_not_goesOn (h : ¬ GoesOn indent inCode ls) (number : Nat)
    (previous : Text) :
    ∃ issues, ∀ rest, modeIssues indent number inCode previous (ls ++ rest) = issues := by
  induction ls generalizing inCode number previous with
  | nil => exact absurd trivial h
  | cons l ls ih =>
    cases hends : endsMethod indent inCode l with
    | true => exact ⟨[], fun rest => modeIssues_of_endsMethod hends (ls ++ rest)⟩
    | false =>
      obtain ⟨here, previous', -, hstep⟩ := exists_modeIssues_cons number previous hends
      obtain ⟨issues, hrun⟩ := ih (fun hrest => h ⟨hends, hrest⟩) (number + 1) previous'
      refine ⟨here ++ issues, fun rest => ?_⟩
      rw [List.cons_append, hstep, hrun]

/-! ## A doubled opening -/

/-- Behind a `<?php` on a line of its own there is code. -/
theorem codeAfter_of_trim (h : trim first = openTag) (inCode : Bool) : codeAfter first inCode = true := by
  obtain ⟨gap, gap', -, hgap', hsplit⟩ := exists_trim first
  rw [h] at hsplit
  rw [hsplit]
  exact codeAfter_openTag gap (tagFree_of_allBlank hgap').closing inCode

theorem endsMethod_of_trim (h : trim first = openTag) : endsMethod indent inCode first = false := by
  simp [endsMethod, h, openTag]

/-- The second of two openings is found if the check reads as far. -/
theorem mem_modeIssues_of_goesOn (h : GoesOn indent inCode ls) (hfirst : trim first = openTag)
    (hextra : trim extra = openTag) (rest : List Text) :
    Problem.orphanedOpening.issueAt (number + ls.length + 1) extra
      ∈ modeIssues indent number inCode previous (ls ++ first :: extra :: rest) := by
  obtain ⟨issues, inCode', previous', hrun⟩ := h.exists_modeIssues number previous
  obtain ⟨here, previous'', hprevious, hstep⟩ :=
    exists_modeIssues_cons (number + ls.length) previous' (endsMethod_of_trim hfirst)
  obtain rfl : previous'' = openTag := (hprevious (by rw [hfirst]; decide)).trans hfirst
  have hproblem : problemInCode? openTag openTag = some .orphanedOpening := by
    have hends : ¬ (endsWith openTag closeTag = true ∨ openTag = "\x7d".toList) :=
      not_or.2 ⟨mt endsWith_iff.1 (by decide), by decide⟩
    exact if_pos ⟨rfl, hends⟩
  have hnext : ¬ (openTag.isEmpty = true) ∧ ¬ (true && decide (openTag.head? = some '\x7d')
      && decide (indentWidth extra ≤ indent)) = true := by simp [openTag]
  rw [hrun, hstep, codeAfter_of_trim hfirst, modeIssues]
  simp only [hextra, hnext.1, hnext.2, if_false, Bool.false_eq_true, if_true, hproblem]
  refine List.mem_append_right _ (List.mem_append_right _ (List.mem_append_left _ ?_))
  exact List.mem_singleton.2 rfl

theorem checkRenderModesFrom_declaration {front inside : List Text} {declaration : Text}
    (hfront : ∀ l ∈ front, declaresRender l = false) (hdeclares : declaresRender declaration = true)
    (number : Nat) : checkRenderModesFrom number (front ++ declaration :: inside)
      = modeIssues (indentWidth declaration) (number + front.length + 1) true (trim declaration)
          inside := by
  rw [checkRenderModesFrom_append _ hfront, checkRenderModesFrom]
  exact if_pos hdeclares

/-- The second of two openings is found behind watched lines. -/
theorem mem_checkRenderModesFrom_of_watched (h : Watched ls) (hfirst : trim first = openTag)
    (hextra : trim extra = openTag) (number : Nat) (rest : List Text) :
    Problem.orphanedOpening.issueAt (number + ls.length + 1) extra
      ∈ checkRenderModesFrom number (ls ++ first :: extra :: rest) := by
  obtain ⟨front, declaration, inside, rfl, hfront, hdeclares, hgoes⟩ := h
  have hmem := @mem_modeIssues_of_goesOn _ (number + front.length + 1) _ (trim declaration) _ _ _
    hgoes hfirst hextra rest
  rw [List.append_assoc, List.cons_append, checkRenderModesFrom_declaration hfront hdeclares]
  rw [List.length_append, List.length_cons]
  convert hmem using 2
  omega

/-- Where the method is declared and the check has ended, nothing behind makes a difference. -/
theorem checkRenderModesFrom_of_not_watched (h : ¬ Watched ls)
    (hdeclares : ∃ l ∈ ls, declaresRender l = true) (number : Nat) :
    ∃ issues, ∀ rest, checkRenderModesFrom number (ls ++ rest) = issues := by
  obtain ⟨l, hl, hdeclares⟩ := hdeclares
  obtain ⟨declaration, hfind⟩ := Option.isSome_iff_exists.1 (List.find?_isSome.2 ⟨l, hl, hdeclares⟩)
  obtain ⟨hdeclares, front, inside, rfl, hfront⟩ := List.find?_eq_some_iff_append.1 hfind
  have hfront : ∀ l ∈ front, declaresRender l = false := fun l hl => by simpa using hfront l hl
  have hends : ¬ GoesOn (indentWidth declaration) true inside := fun hgoes =>
    h ⟨front, declaration, inside, rfl, hfront, hdeclares, hgoes⟩
  obtain ⟨issues, hissues⟩ := exists_modeIssues_of_not_goesOn hends (number + front.length + 1)
    (trim declaration)
  refine ⟨issues, fun rest => ?_⟩
  rw [List.append_assoc, List.cons_append, checkRenderModesFrom_declaration hfront hdeclares, hissues]

/-- Lines with a declaration are watched just if none behind the first one ends the method. -/
theorem watched_declaration {front inside : List Text} {declaration : Text}
    (hfront : ∀ l ∈ front, declaresRender l = false) (hdeclares : declaresRender declaration = true) :
    Watched (front ++ declaration :: inside) ↔ GoesOn (indentWidth declaration) true inside := by
  have hfirst {front inside : List Text} {declaration : Text}
      (hfront : ∀ l ∈ front, declaresRender l = false) (hdeclares : declaresRender declaration = true) :
      (front ++ declaration :: inside).dropWhile (! declaresRender ·) = declaration :: inside := by
    rw [List.dropWhile_append_of_pos fun l hl => by rw [hfront l hl]; rfl]
    exact List.dropWhile_cons_of_neg (by rw [hdeclares]; decide)
  constructor
  · rintro ⟨front', declaration', inside', hls, hfront', hdeclares', hgoes⟩
    obtain ⟨rfl, rfl⟩ := List.cons.inj ((hfirst hfront' hdeclares').symm.trans
      (hls ▸ hfirst hfront hdeclares))
    exact hgoes
  · exact fun hgoes => ⟨front, declaration, inside, rfl, hfront, hdeclares, hgoes⟩

/-- Whether anything is found does not depend on where the lines stand. -/
theorem modeIssues_eq_nil_of_number (h : modeIssues indent number inCode previous ls = [])
    (number' : Nat) : modeIssues indent number' inCode previous ls = [] := by
  induction ls generalizing number number' inCode previous with
  | nil => rfl
  | cons l ls ih =>
    rw [modeIssues] at h ⊢
    by_cases hempty : (trim l).isEmpty = true
    · simp only [hempty, if_true] at h ⊢
      exact ih h _
    · by_cases hends : (inCode && decide ((trim l).head? = some '\x7d')
          && decide (indentWidth l ≤ indent)) = true
      · simp only [hempty, hends, if_true, if_false, Bool.false_eq_true]
      · simp only [hempty, hends, if_false, Bool.false_eq_true, List.append_eq_nil_iff,
          List.map_eq_nil_iff] at h ⊢
        exact ⟨h.1, ih h.2 _⟩

/-! ## Lines as they are read -/

theorem prefix_dropReturn (l : Text) : dropReturn l <+: l := by
  rw [dropReturn]
  split
  · exact List.dropLast_prefix l
  · exact List.prefix_rfl

/-- In code that does not call the method no line declares it. -/
theorem declaresRender_of_uncalled (h : Uncalled "render" (joinLines ls)) :
    ∀ l ∈ ls.map dropReturn, declaresRender l = false := by
  intro l hl
  obtain ⟨l, hmem, rfl⟩ := List.mem_map.1 hl
  exact (h.of_infix ((prefix_dropReturn l).isInfix.trans (infix_joinLines hmem))
    (by decide)).occursIn_eq_false (by decide)

theorem trim_dropReturn (l : Text) : trim (dropReturn l) = trim l := by
  rw [dropReturn]
  split
  · next hlast =>
    obtain ⟨front, rfl⟩ := List.getLast?_eq_some_iff.1 hlast
    rw [List.dropLast_concat]
    exact (trim_append_right (t := ['\r']) (by decide)).symm
  · rfl

theorem lastOffset?_dropReturn {mark : Text} (hmark : '\r' ∉ mark) (hne : mark ≠ []) (l : Text) :
    lastOffset? mark (dropReturn l) = lastOffset? mark l := by
  rw [dropReturn]
  split
  · next hlast =>
    obtain ⟨front, rfl⟩ := List.getLast?_eq_some_iff.1 hlast
    rw [List.dropLast_concat]
    refine (lastOffset?_append (apart_of_head fun c hc hm => ?_) fun h => ?_).symm
    · obtain rfl : '\r' = c := Option.some.inj hc
      exact hmark (List.mem_of_mem_tail hm)
    · obtain ⟨c, mark, rfl⟩ := List.exists_cons_of_ne_nil hne
      obtain rfl : c = '\r' := List.mem_singleton.1 (h.subset List.mem_cons_self)
      exact hmark List.mem_cons_self
  · rfl

theorem codeAfter_dropReturn (l : Text) (inCode : Bool) :
    codeAfter (dropReturn l) inCode = codeAfter l inCode := by
  rw [codeAfter, codeAfter, lastOffset?_dropReturn (by decide) (by decide),
    lastOffset?_dropReturn (by decide) (by decide), lastOffset?_dropReturn (by decide) (by decide)]

theorem endsMethod_dropReturn (l : Text) :
    endsMethod indent inCode (dropReturn l) = endsMethod indent inCode l := by
  rw [endsMethod, endsMethod, trim_dropReturn]
  by_cases hbrace : (trim l).head? = some '\x7d'
  · have hwidth : indentWidth (dropReturn l) = indentWidth l := by
      obtain ⟨gap, gap', hgap, -, hsplit⟩ := exists_trim (dropReturn l)
      obtain ⟨rest, hrest⟩ := List.head?_eq_some_iff.1 hbrace
      rw [trim_dropReturn, hrest] at hsplit
      have hfirst (t : Text) : indentWidth (gap ++ ('\x7d' :: rest) ++ t) = gap.length := by
        rw [indentWidth, List.append_assoc, List.takeWhile_append_of_pos fun c hc => isBlank_of_mem hgap hc,
          List.cons_append, List.takeWhile_cons_of_neg (by decide), List.append_nil]
      rw [dropReturn] at hsplit ⊢
      split at hsplit
      · next hlast =>
        rw [if_pos hlast, hsplit, hfirst]
        obtain ⟨front, rfl⟩ := List.getLast?_eq_some_iff.1 hlast
        rw [List.dropLast_concat] at hsplit
        rw [hsplit, List.append_assoc _ gap', hfirst]
      · next hlast => rw [if_neg hlast]
    rw [hwidth]
  · simp [hbrace]

theorem goesOn_map_dropReturn :
    GoesOn indent inCode (ls.map dropReturn) ↔ GoesOn indent inCode ls := by
  induction ls generalizing inCode with
  | nil => rfl
  | cons l ls ih =>
    rw [List.map_cons, GoesOn, GoesOn, endsMethod_dropReturn, codeAfter_dropReturn, ih]

theorem GoesOn.of_append (h : GoesOn indent inCode (ls ++ ls')) : GoesOn indent inCode ls := by
  induction ls generalizing inCode with
  | nil => trivial
  | cons l ls ih => exact ⟨h.1, ih h.2⟩

/-! ## Lines of code -/

/-- No line of the text ends the method, in whichever mode it is read. -/
def Steady (indent : Nat) (s : Text) : Prop :=
  ∀ inCode, GoesOn indent inCode (splitOn (· == '\n') s)

theorem endsMethod_of_markup : endsMethod indent false l = false := rfl

namespace Steady

theorem nil : Steady indent [] := fun inCode => ⟨by simp [endsMethod, trim, trimStart, trimEnd], trivial⟩

/-- A line that does not begin with a brace, or begins with one that stands further in. -/
theorem line (hl : '\n' ∉ l) (hbrace : (trim l).head? = some '\x7d' → indent < indentWidth l)
    (h : Steady indent s) : Steady indent (l ++ '\n' :: s) := by
  intro inCode
  rw [splitOn_newline hl]
  refine ⟨Bool.eq_false_iff.2 fun hends => ?_, h _⟩
  obtain ⟨⟨-, hhead⟩, hwidth⟩ : (inCode = true ∧ (trim l).head? = some '\x7d')
      ∧ indentWidth l ≤ indent := by simpa [endsMethod] using hends
  exact Nat.not_lt.2 hwidth (hbrace hhead)

theorem lines (hls : ∀ l ∈ ls, '\n' ∉ l ∧ ((trim l).head? = some '\x7d' → indent < indentWidth l))
    (h : Steady indent s) : Steady indent (joinLines ls ++ s) := by
  induction ls with
  | nil => exact h
  | cons l ls ih =>
    obtain ⟨hl, hls⟩ := List.forall_mem_cons.1 hls
    have := line hl.1 hl.2 (ih hls)
    rwa [joinLines, List.append_assoc, List.cons_append]

end Steady

/-! ## Markup and code in turns -/

/-- In markup any line can follow. -/
theorem GoesOn.markupLine (hl : '\n' ∉ l)
    (h : GoesOn indent (codeAfter l false) (splitOn (· == '\n') s)) :
    GoesOn indent false (splitOn (· == '\n') (l ++ '\n' :: s)) := by
  rw [splitOn_newline hl]
  exact ⟨endsMethod_of_markup, h⟩

/-- Markup without instructions goes on in any number of lines.  Of the line that was begun, `u` stands
behind the last `?>`. -/
theorem GoesOn.markup {u : Text} (ht : Lacks "<?" (u ++ t)) (hl : '\n' ∉ l)
    (hu : l = u ∨ ∃ a, l = a ++ closeTag ++ u)
    (h : ∀ l, Showing l → GoesOn indent false (splitOn (· == '\n') (l ++ s))) :
    GoesOn indent false (splitOn (· == '\n') (l ++ (t ++ s))) := by
  induction t generalizing u l with
  | nil =>
    rw [List.append_nil] at ht
    refine h l ⟨hl, ?_⟩
    rcases hu with rfl | ⟨a, rfl⟩
    · exact ⟨[], l, .inl rfl, ht⟩
    · exact ⟨a, u, .inr rfl, ht⟩
  | cons c t ih =>
    by_cases hline : c = '\n'
    · subst hline
      have hshowing : Showing l := by
        have hlacks : Lacks "<?" u := ht.of_infix (List.prefix_append u _).isInfix
        refine ⟨hl, ?_⟩
        rcases hu with rfl | ⟨a, rfl⟩
        · exact ⟨[], l, .inl rfl, hlacks⟩
        · exact ⟨a, u, .inr rfl, hlacks⟩
      refine GoesOn.markupLine hl ?_
      rw [hshowing.codeAfter_eq]
      have hrest : Lacks "<?" ([] ++ t) := ht.of_infix ⟨u ++ ['\n'], [], by simp⟩
      exact ih hrest (by simp) (.inl rfl)
    · have hlonger : l ++ (c :: t ++ s) = (l ++ [c]) ++ (t ++ s) := by simp
      rw [hlonger]
      refine ih (u := u ++ [c]) (by simpa using ht) (by simpa using ⟨hl, Ne.symm hline⟩) ?_
      rcases hu with rfl | ⟨a, rfl⟩
      · exact .inl rfl
      · exact .inr ⟨a, by simp⟩

/-- No line of turns ends the method, if none behind them does. -/
theorem GoesOn.turns (hx : Turns (Lacks "<?") Printing x) (h : Steady indent s)
    (hl : '\n' ∉ l) (hu : l = [] ∨ ∃ a, l = a ++ closeTag) :
    GoesOn indent false (splitOn (· == '\n') (l ++ (x ++ s))) := by
  have hmarkup {t s l : Text} (ht : Lacks "<?" t) (hl : '\n' ∉ l)
      (hu : l = [] ∨ ∃ a, l = a ++ closeTag)
      (h : ∀ l, Showing l → GoesOn indent false (splitOn (· == '\n') (l ++ s))) :
      GoesOn indent false (splitOn (· == '\n') (l ++ (t ++ s))) :=
    GoesOn.markup (u := []) ht hl (hu.imp_right fun ⟨a, ha⟩ => ⟨a, by simpa using ha⟩) h
  -- the line on which code is entered ends with it
  have henter {code s l : Text} (hcode : '\n' ∉ code) (h : Steady indent s) (hl : '\n' ∉ l) :
      GoesOn indent false (splitOn (· == '\n') (l ++ (openTag ++ code ++ '\n' :: s))) := by
    have hline : '\n' ∉ l ++ (openTag ++ code) := by simpa [openTag] using ⟨hl, hcode⟩
    have := GoesOn.markupLine (s := s) hline (h _)
    simpa using this
  induction hx generalizing l with
  | enter ht _ =>
    have := hmarkup ht hl hu fun l hl => henter List.not_mem_nil h hl.line
    simpa using this
  | @stay t code ht hcode =>
    have hspaced : '\n' ∉ ' ' :: code := by simpa using hcode.piece.crosses.line
    have := hmarkup ht hl hu fun l hl => henter hspaced h hl.line
    simpa using this
  | @turn t code rest ht hcode _ ih =>
    have hrest {l : Text} (hl : '\n' ∉ l) : GoesOn indent false (splitOn (· == '\n')
        (l ++ (openTag ++ ' ' :: code ++ ' ' :: closeTag ++ rest ++ s))) := by
      have hline : '\n' ∉ l ++ (openTag ++ ' ' :: code ++ [' ']) ++ closeTag := by
        simpa [openTag, closeTag] using ⟨hl, hcode.piece.crosses.line⟩
      have := ih hline (.inr ⟨_, rfl⟩)
      simpa using this
    have := hmarkup ht hl hu fun l hl => hrest hl.line
    simpa using this
  | @lost t gap ht _ =>
    have hkept : trimEnd t <+: t ++ closeTag ++ gap := by
      rw [List.append_assoc]
      exact List.IsPrefix.trans ⟨_, trimEnd_append t⟩ (List.prefix_append _ _)
    have := hmarkup (s := '\n' :: s) (ht.of_infix hkept.isInfix) hl hu fun l hl =>
      GoesOn.markupLine hl.line (h _)
    simpa using this

/-- Turns behind a line on which code is left. -/
theorem Steady.turns {gap : Text} (hgap : '\n' ∉ gap) (hbrace : (trim (gap ++ closeTag)).head? ≠ some '\x7d')
    (hx : Turns (Lacks "<?") Printing x) (hline : ['\n'] <+: x) (h : Steady indent s) :
    Steady indent (gap ++ closeTag ++ (x ++ s)) := by
  intro inCode
  obtain ⟨x', rfl⟩ := hline
  have hfirst : '\n' ∉ gap ++ closeTag := by simpa [closeTag] using hgap
  have hmode : codeAfter (gap ++ closeTag) inCode = false := by
    have := codeAfter_closeTag gap (t := []) (by decide) inCode
    rwa [List.append_nil] at this
  -- the turns begin with the end of this line
  have hturns := GoesOn.turns hx h (l := []) (by simp) (.inl rfl)
  rw [List.nil_append, List.append_assoc, List.singleton_append, splitOn_cons_of_pos rfl] at hturns
  rw [List.append_assoc ['\n'], List.singleton_append, splitOn_newline hfirst]
  refine ⟨by simp [endsMethod, hbrace], ?_⟩
  rw [hmode]
  exact hturns.2

/-! ## Lines of the method -/

theorem steady_blockText {lines : List Text} {opening code closing : Text}
    (hlines : ∀ l ∈ lines, Piece l ∧ ((trim l).head? = some '\x7d' → 4 < indentWidth l))
    (hturns : Turns Fragment Printing (shownValue opening code closing)) (h : Steady 4 s) :
    Steady 4 (blockText lines opening code closing ++ s) := by
  have hbrace : Steady 4 (joinLines [bodyIndent ++ ("\x7d" : Text)] ++ s) :=
    Steady.lines (List.forall_mem_singleton.2 ⟨by decide, fun _ => by decide⟩) h
  have hgap : '\n' ∉ blockIndent := by decide
  have hshown := Steady.turns hgap (by decide)
    (hturns.mono Fragment.lacks_instruction id) (List.prefix_append ['\n'] _) hbrace
  have hempty : '\n' ∉ ([] : Text) ∧ ((trim []).head? = some '\x7d' → 4 < indentWidth []) :=
    ⟨by simp, fun h => absurd h (by decide)⟩
  have := Steady.lines (List.forall_mem_cons.2
    ⟨hempty, fun l hl => ⟨(hlines l hl).1.crosses.line, (hlines l hl).2⟩⟩) hshown
  rw [blockText]
  simpa only [List.append_assoc] using this

theorem steady_customCode : Steady 4 customCode := by
  have hscript := steady_blockText (s := [])
    (fun l hl => piece_blockLine l (List.mem_append_right _ hl)) turns_scriptValue Steady.nil
  have := steady_blockText (fun l hl => piece_blockLine l (List.mem_append_left _ hl))
    turns_styleValue hscript
  rwa [List.append_nil] at this

/-- A binding stands on one line if what stands in for its value has no line break. -/
theorem not_mem_binding {held : Text → Prop} {b : Binding}
    (h : b.Drawn IsLocal (isIdentifier · = true) held)
    (hfallback : ∀ fallback ∈ b.source.fallback?, '\n' ∉ fallback) : '\n' ∉ b.toPhp := by
  have append {s t : Text} (hs : '\n' ∉ s) (ht : '\n' ∉ t) : '\n' ∉ s ++ t := fun hm =>
    (List.mem_append.1 hm).elim hs ht
  have hword {t : Text} (ht : IsWord t) : '\n' ∉ t := fun hm => absurd (ht _ hm) (by decide)
  have hquoted {t : Text} (ht : '\n' ∉ t) : '\n' ∉ singleQuoted t := by
    simpa [singleQuoted] using not_mem_escapeSingle ht
  have hsetting {i : Text} (hi : isIdentifier i = true) : '\n' ∉ (Value.setting i).toPhp :=
    append (append (by decide) (hquoted (hword ((isIdentifier_iff i).1 hi).2))) (by decide)
  have hempty : '\n' ∉ ("!empty(" : Text) := by decide
  have hsource : '\n' ∉ b.source.toPhp := by
    have hdrawn := h.2
    cases hb : b.source with
    | setting i =>
      rw [hb] at hdrawn
      exact hsetting hdrawn
    | settingOr i fallback =>
      rw [hb] at hdrawn hfallback
      have htested := append (append hempty (hsetting hdrawn.1))
        (by decide : '\n' ∉ (") ? " : Text))
      exact append (append (append htested (hsetting hdrawn.1)) (by decide))
        (hquoted (hfallback fallback rfl))
    | linkOrNull i =>
      rw [hb] at hdrawn
      have htested := append (append hempty (hsetting hdrawn))
        (by decide : '\n' ∉ ("['url']) ? " : Text))
      exact append (append htested (hsetting hdrawn)) (by decide)
    | urlOr i fallback =>
      rw [hb] at hdrawn hfallback
      have htested := append (append hempty (hsetting hdrawn.1))
        (by decide : '\n' ∉ ("['url']) ? " : Text))
      exact append (append (append (append htested (hsetting hdrawn.1)) (by decide))
        (hquoted (hfallback fallback rfl))) (by decide)
  have hname : '\n' ∉ '$' :: b.var := append (s := ['$']) (by decide) (hword h.1.word)
  exact append (append (append hname (by decide)) hsource) (by decide)

theorem steady_bindingLines {held : Text → Prop}
    (h : ∀ b ∈ bindings, b.Drawn IsLocal (isIdentifier · = true) held)
    (hfallbacks : ∀ fallback ∈ bindings.filterMap (·.source.fallback?), '\n' ∉ fallback)
    (hs : Steady 4 s) : Steady 4 (bindingLines bodyIndent bindings ++ s) := by
  induction bindings with
  | nil => exact hs
  | cons b bindings ih =>
    obtain ⟨hb, hbindings⟩ := List.forall_mem_cons.1 h
    have hline : '\n' ∉ bodyIndent ++ b.toPhp := by
      have := not_mem_binding hb fun fallback hfallback => hfallbacks fallback
        (List.mem_filterMap.2 ⟨b, List.mem_cons_self, hfallback⟩)
      exact fun hm => (List.mem_append.1 hm).elim (by decide) this
    have hhead : (trim (bodyIndent ++ b.toPhp)).head? = some '$' := by
      rw [trim_append_left (by decide)]
      exact head?_trim_cons (by decide) _
    have hrest := ih hbindings fun fallback hfallback => by
      obtain ⟨b', hb', hsource⟩ := List.mem_filterMap.1 hfallback
      exact hfallbacks fallback (List.mem_filterMap.2 ⟨b', List.mem_cons_of_mem b hb', hsource⟩)
    have := Steady.line hline (fun hbrace => absurd (hhead.symm.trans hbrace) (by decide)) hrest
    simpa [bindingLines] using this

theorem steady_headText {held : Text → Prop}
    (h : ∀ b ∈ bindings, b.Drawn IsLocal (isIdentifier · = true) held)
    (hfallbacks : ∀ fallback ∈ bindings.filterMap (·.source.fallback?), '\n' ∉ fallback)
    (hs : Steady 4 s) : Steady 4 (headText bodyIndent bindings ++ s) := by
  have hremark : Steady 4 (joinLines [[], bodyIndent ++ ("// Widget markup" : Text)] ++ s) := by
    refine Steady.lines ?_ hs
    decide
  have := steady_bindingLines h hfallbacks hremark
  simpa [headText, joinLines] using this

/-- No line of the method ends it, if no line break stands in for a missing value. -/
theorem steady_renderBody {markup : Text} {held : Text → Prop} (hm : Lacks "<?" markup)
    (hbs : ∀ b ∈ bs, Supplies IsLocal (isIdentifier · = true) held b)
    (hfallbacks : ∀ fallback ∈ (planRender markup bs).fallbacks, '\n' ∉ fallback) :
    Steady 4 (renderBody (planRender markup bs)) := by
  have hbindings := (@drawn_planRender _ _ _ markup bs hbs).bindings
  obtain ⟨u, hbody, hu⟩ := exists_renderBody hm hbs
  have hrest : Steady 4 (u ++ customCode) := by
    rcases hu with rfl | rfl | ⟨x, hx, hline, rfl⟩
    · exact steady_bindingLines hbindings hfallbacks steady_customCode
    · exact steady_headText hbindings hfallbacks steady_customCode
    · have hgap : '\n' ∉ bodyIndent := by decide
      have hturns := Steady.turns hgap (by decide) hx hline
        steady_customCode
      have := steady_headText hbindings hfallbacks hturns
      simpa only [List.append_assoc] using this
  rw [hbody]
  exact Steady.line (by decide) (fun hbrace => absurd hbrace (by decide)) hrest

end

end WidgetCompiler.Validation
