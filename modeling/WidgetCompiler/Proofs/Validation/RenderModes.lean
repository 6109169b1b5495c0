import WidgetCompiler.Proofs.Php.Modes
import WidgetCompiler.Proofs.Validation.Markers
import WidgetCompiler.Proofs.Text.Blank
import WidgetCompiler.Proofs.Text.Pieces
import WidgetCompiler.Validation.RenderModes

/-!
# Lines in order

The check of modes goes line by line and asks which delimiter stands last in a line.  `Orderly`
says that nothing is found in the lines of a text.  Like `Closed` it is built from behind: a line of
code stands before what is orderly from code, a line of markup before what is orderly from the mode
that its last delimiter leads to.

Markup and pieces of code in turns do not end where lines do.  So the text is taken together with
the line that was begun before it, and all that has to be known of that one is that it leads to
markup when it is cut off (`Showing`).
-/

namespace WidgetCompiler.Validation

open Text Php

section

variable {mark s t l : Text}

/-! ## The last place of a mark -/

theorem lastOffset?_bound {n : Nat} (h : lastOffset? mark s = some n) :
    n + mark.length ≤ s.length := by
  induction s generalizing n with
  | nil => simp [lastOffset?] at h
  | cons c s ih =>
    rw [lastOffset?] at h
    split at h
    · next m hm =>
      have := ih hm
      obtain rfl := Option.some.inj h
      simp only [List.length_cons]
      omega
    · split at h
      · next hstart =>
        obtain rfl := Option.some.inj h
        have := (startsWith_iff.1 hstart).length_le
        omega
      · simp at h

theorem lastOffset?_of_lacks (h : Lacks mark s) : lastOffset? mark s = none := by
  induction s with
  | nil => rfl
  | cons c s ih =>
    have hs : Lacks mark s := h.of_infix ⟨[c], [], by simp⟩
    have hstart : startsWith (c :: s) mark = false :=
      Bool.eq_false_iff.2 fun hstart => h (startsWith_iff.1 hstart).isInfix
    rw [lastOffset?, ih hs, hstart]
    rfl

/-- What follows without the mark makes no difference. -/
theorem lastOffset?_append (h : Apart mark s t) (ht : Lacks mark t) :
    lastOffset? mark (s ++ t) = lastOffset? mark s := by
  induction s with
  | nil => rw [List.nil_append, lastOffset?_of_lacks ht, lastOffset?]
  | cons c s ih =>
    have hs : Apart mark s t := h.of_suffix (List.suffix_cons c s)
    have hstart : startsWith (c :: (s ++ t)) mark = startsWith (c :: s) mark := by
      rw [Bool.eq_iff_iff, startsWith_iff, startsWith_iff]
      constructor
      · intro hp
        exact prefix_of_prefix_append (a := []) h ht hp
      · intro hp
        exact hp.trans (List.prefix_append _ t)
    rw [List.cons_append, lastOffset?, ih hs, hstart, lastOffset?]

/-- The last place is not before a place of the mark. -/
theorem exists_lastOffset? (a b : Text) (hmark : mark ≠ []) :
    ∃ n, lastOffset? mark (a ++ mark ++ b) = some n ∧ a.length ≤ n := by
  induction a with
  | nil =>
    obtain ⟨m, mark, rfl⟩ := List.exists_cons_of_ne_nil hmark
    rw [List.nil_append, List.cons_append, lastOffset?]
    split
    · exact ⟨_, rfl, Nat.zero_le _⟩
    · have hstart : startsWith (m :: (mark ++ b)) (m :: mark) = true :=
        startsWith_iff.2 ⟨b, rfl⟩
      rw [if_pos hstart]
      exact ⟨0, rfl, Nat.le_refl _⟩
  | cons c a ih =>
    obtain ⟨n, hn, hle⟩ := ih
    refine ⟨n + 1, ?_, by simpa using hle⟩
    rw [List.cons_append, List.cons_append, lastOffset?, hn]

/-! ## The mode behind a line -/

/-- Without delimiters the mode stays. -/
theorem codeAfter_of_lacks {inCode : Bool} (hopen : Lacks "<?" l) (hclose : Lacks closeTag l) :
    codeAfter l inCode = inCode := by
  have hopenTag : Lacks openTag l := fun h => hopen (List.IsInfix.trans ⟨[], ['p', 'h', 'p'], rfl⟩ h)
  have hshort : Lacks shortEchoTag l := fun h => hopen (List.IsInfix.trans ⟨[], ['='], rfl⟩ h)
  rw [codeAfter, lastOffset?_of_lacks hopenTag, lastOffset?_of_lacks hshort,
    lastOffset?_of_lacks hclose]
  rfl

/-- Behind the last `?>` there is markup if no instruction follows. -/
theorem codeAfter_closeTag (a : Text) (ht : Lacks "<?" t) (inCode : Bool) :
    codeAfter (a ++ closeTag ++ t) inCode = false := by
  have hbehind : Lacks "<?" ('>' :: t) :=
    Lacks.append (s := ['>']) (by decide) ht (apart_of_last (by decide))
  have hbound {mark : Text} (hmark : ("<?" : Text) <:+: mark) (hhead : ('>' : Char) ∉ mark.tail)
      (hlong : 3 ≤ mark.length) {n : Nat} (hn : lastOffset? mark (a ++ closeTag ++ t) = some n) :
      n < a.length := by
    have hsplit : a ++ closeTag ++ t = (a ++ ['?']) ++ ('>' :: t) := by simp [closeTag]
    have hlacks : Lacks mark ('>' :: t) := fun h => hbehind (hmark.trans h)
    have happart : Apart mark (a ++ ['?']) ('>' :: t) := apart_of_head (by simpa using hhead)
    rw [hsplit, lastOffset?_append happart hlacks] at hn
    have := lastOffset?_bound hn
    simp only [List.length_append, List.length_singleton] at this
    omega
  obtain ⟨c, hc, hle⟩ := exists_lastOffset? a t (show closeTag ≠ [] by decide)
  rw [codeAfter, hc]
  cases ho : lastOffset? openTag (a ++ closeTag ++ t) with
  | none =>
    cases hs : lastOffset? shortEchoTag (a ++ closeTag ++ t) with
    | none => rfl
    | some n =>
      have := hbound (by decide) (by decide) (by decide) hs
      simp only [maxOption, decide_eq_false_iff_not]
      omega
  | some m =>
    have hm := hbound (by decide) (by decide) (by decide) ho
    cases hs : lastOffset? shortEchoTag (a ++ closeTag ++ t) with
    | none =>
      simp only [maxOption, decide_eq_false_iff_not]
      omega
    | some n =>
      have := hbound (by decide) (by decide) (by decide) hs
      simp only [maxOption, decide_eq_false_iff_not]
      omega

/-- Behind the last `<?php` there is code if no `?>` follows. -/
theorem codeAfter_openTag (a : Text) (ht : Lacks closeTag t) (inCode : Bool) :
    codeAfter (a ++ openTag ++ t) inCode = true := by
  obtain ⟨o, ho, hle⟩ := exists_lastOffset? a t (show openTag ≠ [] by decide)
  have hlacks : Lacks closeTag (openTag ++ t) :=
    Lacks.append (by decide) ht (apart_of_last (by decide))
  have happart : Apart closeTag a (openTag ++ t) := by
    refine apart_of_head fun c hc => ?_
    obtain rfl : '<' = c := by simpa [openTag] using hc
    decide
  have hclose : lastOffset? closeTag (a ++ openTag ++ t) = lastOffset? closeTag a := by
    rw [List.append_assoc, lastOffset?_append happart hlacks]
  rw [codeAfter, ho, hclose]
  have hmax : ∃ m, maxOption (some o) (lastOffset? shortEchoTag (a ++ openTag ++ t)) = some m
      ∧ a.length ≤ m := by
    cases lastOffset? shortEchoTag (a ++ openTag ++ t) with
    | none => exact ⟨o, rfl, hle⟩
    | some n => exact ⟨max o n, rfl, by omega⟩
  obtain ⟨m, hm, hle'⟩ := hmax
  rw [hm]
  cases hc : lastOffset? closeTag a with
  | none => rfl
  | some n =>
    have := lastOffset?_bound hc
    have hlength : closeTag.length = 2 := rfl
    simp only [gt_iff_lt, decide_eq_true_eq]
    omega

/-! ## Lines -/

/-- Nothing is found in the lines of a text that begins in code or in markup. -/
def Orderly (indent : Nat) (inCode : Bool) (s : Text) : Prop :=
  ∀ number previous, modeIssues indent number inCode previous (splitOn (· == '\n') s) = []

variable {indent : Nat}

theorem splitOn_newline (hl : '\n' ∉ l) (s : Text) :
    splitOn (· == '\n') (l ++ '\n' :: s) = l :: splitOn (· == '\n') s :=
  splitOn_line (fun c hc => beq_eq_false_iff_ne.2 fun e : c = '\n' => hl (e ▸ hc)) rfl s

/-- A line of code without tags and delimiters.  It does not end the method: a brace at its
beginning stands further in than the method. -/
structure CodeLine (indent : Nat) (l : Text) : Prop where
  line : '\n' ∉ l
  tag : '<' ∉ l
  close : Lacks closeTag l
  brace : (trim l).head? = some '\x7d' → indent < indentWidth l

theorem CodeLine.orderly (hl : CodeLine indent l) (h : Orderly indent true s) :
    Orderly indent true (l ++ '\n' :: s) := by
  intro number previous
  rw [splitOn_newline hl.line, modeIssues]
  by_cases hempty : (trim l).isEmpty = true
  · simp only [hempty, if_true]
    exact h _ _
  · have hbrace : ¬ ((trim l).head? = some '\x7d' ∧ indentWidth l ≤ indent) :=
      fun ⟨hhead, hle⟩ => Nat.not_lt.2 hle (hl.brace hhead)
    have htrim : '<' ∉ trim l := fun hm => hl.tag (( trim_infix l).subset hm)
    have hopen : trim l ≠ openTag := fun e => htrim (by rw [e]; decide)
    have htag : beginsWithTag (trim l) = false := by
      unfold beginsWithTag
      split
      · next c r ht => exact absurd (by rw [ht]; simp) htrim
      · rfl
    have hproblem : problemInCode? previous (trim l) = none := by
      simp [problemInCode?, hopen, htag]
    have hlacks : Lacks "<?" l := lacks_of_not_mem (by decide) hl.tag
    have hif : ¬ (true && decide ((trim l).head? = some '\x7d')
        && decide (indentWidth l ≤ indent)) = true := by
      simpa using hbrace
    simp only [hempty, hif, if_true, hproblem, codeAfter_of_lacks hlacks hl.close]
    simpa using h _ _

/-- The line that leaves code. -/
theorem Orderly.leave {gap : Text} (hgap : allBlank gap = true) (hline : '\n' ∉ gap)
    (h : Orderly indent false ('\n' :: s)) :
    Orderly indent true (gap ++ closeTag ++ '\n' :: s) := by
  have hnewline : '\n' ∉ gap ++ closeTag := by simpa [closeTag] using hline
  have htrim : trim (gap ++ closeTag) = closeTag := by rw [trim_append_left hgap]; rfl
  have hmode : codeAfter (gap ++ closeTag) true = false := by
    have := codeAfter_closeTag gap (t := []) (by decide) true
    rwa [List.append_nil] at this
  intro number previous
  have hrest := h number closeTag
  rw [splitOn_cons_of_pos rfl] at hrest
  rw [splitOn_newline hnewline, modeIssues, htrim, hmode]
  exact hrest

/-- A line of markup, with the delimiters that are in it. -/
theorem Orderly.markupLine (hl : '\n' ∉ l) (h : Orderly indent (codeAfter l false) s) :
    Orderly indent false (l ++ '\n' :: s) := by
  intro number previous
  rw [splitOn_newline hl, modeIssues]
  by_cases hempty : (trim l).isEmpty = true
  · have hblank : allBlank l = true := allBlank_of_trim_eq_nil (List.isEmpty_iff.1 hempty)
    have htags := tagFree_of_allBlank hblank
    rw [codeAfter_of_lacks htags.opening htags.closing] at h
    simp only [hempty, if_true]
    exact h _ _
  · simp only [hempty, Bool.false_and]
    simpa using h _ _

/-- The brace that stands no further in than the method ends it, whatever follows. -/
theorem orderly_end (hl : '\n' ∉ l) (hbrace : (trim l).head? = some '\x7d')
    (hindent : indentWidth l ≤ indent) (s : Text) : Orderly indent true (l ++ '\n' :: s) := by
  have hempty : (trim l).isEmpty = false := by
    cases ht : trim l with
    | nil => simp [ht] at hbrace
    | cons c r => rfl
  intro number previous
  rw [splitOn_newline hl, modeIssues]
  simp [hempty, hbrace, hindent]

/-! ## Markup and code in turns -/

/-- A beginning of a line that leads to markup: no instruction stands behind its last `?>`. -/
structure Showing (l : Text) : Prop where
  line : '\n' ∉ l
  last : ∃ a t, (l = t ∨ l = a ++ closeTag ++ t) ∧ Lacks "<?" t

namespace Showing

theorem nil : Showing [] := ⟨by simp, [], [], .inl rfl, by decide⟩

theorem concat {c : Char} (h : Showing l) (hline : c ≠ '\n') (hc : c ≠ '?') : Showing (l ++ [c]) := by
  obtain ⟨a, t, ht, hlast⟩ := h.last
  have hlacks : Lacks "<?" (t ++ [c]) :=
    hlast.append (lacks_of_not_mem (c := '?') (by decide) (by simpa using Ne.symm hc))
      (apart_of_head (by simpa using hc))
  refine ⟨by simpa using ⟨h.line, Ne.symm hline⟩, a, t ++ [c], ?_, hlacks⟩
  rcases ht with rfl | rfl
  · exact .inl rfl
  · exact .inr (by simp)

theorem closeTag (hl : '\n' ∉ l) : Showing (l ++ Php.closeTag) :=
  ⟨by simpa [Php.closeTag] using hl, l, [], .inr (by simp), by decide⟩

theorem codeAfter_eq (h : Showing l) : codeAfter l false = false := by
  obtain ⟨a, t, rfl | rfl, ht⟩ := h.last
  · have hopen : ∀ mark ∈ [openTag, shortEchoTag], lastOffset? mark l = none := by
      have hmarks : ∀ mark ∈ [openTag, shortEchoTag], ("<?" : Text) <:+: mark := by decide
      exact fun mark hmark => lastOffset?_of_lacks fun h => ht ((hmarks mark hmark).trans h)
    rw [codeAfter, hopen _ (by simp), hopen _ (by simp)]
    cases lastOffset? Php.closeTag l <;> rfl
  · exact codeAfter_closeTag a ht false

end Showing

/-- Markup goes on in any number of lines. -/
theorem Orderly.markup (ht : '?' ∉ t) (h : ∀ l, Showing l → Orderly indent false (l ++ s))
    (hl : Showing l) : Orderly indent false (l ++ (t ++ s)) := by
  induction t generalizing l with
  | nil => exact h l hl
  | cons c t ih =>
    obtain ⟨hc, htail⟩ : '?' ≠ c ∧ '?' ∉ t := by simpa using ht
    by_cases hline : c = '\n'
    · subst hline
      refine Orderly.markupLine hl.line ?_
      rw [hl.codeAfter_eq]
      exact ih htail Showing.nil
    · have := ih htail (hl.concat hline (Ne.symm hc))
      simpa using this

/-- A piece of code between markup stays on its line. -/
theorem Orderly.statement {code : Text} (hcode : '\n' ∉ code)
    (h : ∀ l, Showing l → Orderly indent false (l ++ s)) (hl : Showing l) :
    Orderly indent false (l ++ (openTag ++ ' ' :: (code ++ ' ' :: (closeTag ++ s)))) := by
  have hline : '\n' ∉ l ++ openTag ++ ' ' :: code ++ [' '] := by
    simpa [openTag] using ⟨hl.line, hcode⟩
  have := h _ (Showing.closeTag hline)
  simpa using this

/-- A piece of code that goes on in the next line leads to code for good. -/
theorem Orderly.enter {code : Text} (hcode : '\n' ∉ code) (hclose : Lacks closeTag code)
    (h : Orderly indent true s) (hl : Showing l) :
    Orderly indent false (l ++ (openTag ++ (code ++ '\n' :: s))) := by
  have hline : '\n' ∉ l ++ openTag ++ code := by
    simpa [openTag] using ⟨hl.line, hcode⟩
  have := Orderly.markupLine (s := s) hline (by rwa [codeAfter_openTag l hclose])
  simpa using this

/-! ## The method in a source -/

theorem modeIssues_append_left {number : Nat} {inCode : Bool} {previous : Text} {ls ls' : List Text}
    (h : modeIssues indent number inCode previous (ls ++ ls') = []) :
    modeIssues indent number inCode previous ls = [] := by
  induction ls generalizing number inCode previous with
  | nil => rfl
  | cons line ls ih =>
    rw [List.cons_append, modeIssues] at h
    rw [modeIssues]
    simp only at h ⊢
    split at h
    · next hempty => rw [if_pos hempty, ih h]
    · next hempty =>
      rw [if_neg hempty]
      split at h
      · next hbrace => rw [if_pos hbrace]
      · next hbrace =>
        rw [if_neg hbrace]
        obtain ⟨hhere, hrest⟩ := List.append_eq_nil_iff.1 h
        rw [hhere, ih hrest, List.append_nil]

/-- Where a method is declared, a parenthesis follows its name. -/
theorem methodNamed_eq_some {name rest : Text} {prev : Option Char} {u : Unit}
    (h : methodNamed name prev s = some (u, rest)) :
    ∃ front gap, allBlank gap = true ∧ s = front ++ name ++ gap ++ '(' :: rest := by
  unfold methodNamed at h
  split at h
  · split at h
    · next r hr =>
      obtain ⟨r', hr', hblanks⟩ := Option.bind_eq_some_iff.1 hr
      obtain ⟨gap, -, rfl⟩ := exists_of_afterSomeBlanks? hblanks
      split at h
      · next t ht =>
        obtain ⟨t', ht', hgap⟩ := Option.map_eq_some_iff.1 ht
        obtain ⟨gap', hgap', ht''⟩ := exists_of_afterBlanks t'
        obtain rfl : t = rest := by simpa using h
        refine ⟨("function" : Text) ++ gap, gap', hgap', ?_⟩
        rw [hgap] at ht''
        rw [after?_eq_some.1 hr', after?_eq_some.1 ht', ht'']
        simp
      · simp at h
    · simp at h
  · simp at h

/-- No parenthesis follows the name in the text. -/
def Uncalled (name t : Text) : Prop := ∀ a b, t = a ++ '(' :: b → ¬ name <:+ trimEnd a

theorem Uncalled.of_infix {name : Text} (h : Uncalled name t) (hs : s <:+: t) (hname : name ≠ []) :
    Uncalled name s := by
  obtain ⟨front, rest, rfl⟩ := hs
  rintro a b rfl hsuffix
  have hblank : allBlank a = false := by
    refine Bool.eq_false_iff.2 fun ha => hname ?_
    rw [trimEnd_of_allBlank ha] at hsuffix
    exact List.suffix_nil.1 hsuffix
  refine h (front ++ a) (b ++ rest) (by simp) ?_
  rw [trimEnd_append_of_not_allBlank hblank]
  exact hsuffix.trans (List.suffix_append front _)

theorem Uncalled.occursIn_eq_false {name : Text} (h : Uncalled name t)
    (hname : ∃ c ∈ name.getLast?, isBlank c = false) :
    Pattern.occursIn (methodNamed name) t = false := by
  have habsent : Pattern.Absent (methodNamed name) t := by
    intro a b hab _ prev
    refine Option.eq_none_iff_forall_ne_some.2 ?_
    rintro ⟨u, rest⟩ hmatch
    obtain ⟨front, gap, hgap, rfl⟩ := methodNamed_eq_some hmatch
    refine h (a ++ front ++ name ++ gap) rest (by rw [hab]; simp) ?_
    exact suffix_trimEnd hgap (a ++ front) hname
  rw [Pattern.occursIn, habsent.find?_eq_none]
  rfl

theorem checkRenderModesFrom_append_left {number : Nat} {ls ls' : List Text}
    (h : checkRenderModesFrom number (ls ++ ls') = []) : checkRenderModesFrom number ls = [] := by
  induction ls generalizing number with
  | nil => rfl
  | cons line ls ih =>
    rw [List.cons_append, checkRenderModesFrom] at h
    rw [checkRenderModesFrom]
    split at h
    · next hmatch => rw [if_pos hmatch, modeIssues_append_left h]
    · next hmatch => rw [if_neg hmatch, ih h]

/-- Lines before the method make no difference but to the number. -/
theorem checkRenderModesFrom_append {ls : List Text} (ls' : List Text)
    (h : ∀ l ∈ ls, Pattern.occursIn (methodNamed "render") l = false) (number : Nat) :
    checkRenderModesFrom number (ls ++ ls') = checkRenderModesFrom (number + ls.length) ls' := by
  induction ls generalizing number with
  | nil => rfl
  | cons l ls ih =>
    rw [List.cons_append, checkRenderModesFrom, h l (by simp), if_neg Bool.false_ne_true,
      ih (fun l' hl' => h l' (by simp [hl'])), List.length_cons, Nat.add_assoc, Nat.add_comm 1]

/-- A source passes if the method is declared in a line of it, and not in the lines before, and
nothing is found in those behind. -/
theorem checkRenderModes_eq_nil {front line body : Text} (hfront : Uncalled "render" front)
    (hend : front.getLast? = some '\n') (hline : '\n' ∉ line)
    (hmatch : Pattern.occursIn (methodNamed "render") line = true)
    (hbody : Orderly (indentWidth line) true body)
    (hreturn : '\r' ∉ front ++ (line ++ '\n' :: body)) :
    checkRenderModes (Source.ofText (front ++ (line ++ '\n' :: body))) = [] := by
  obtain ⟨ls, rfl, hls⟩ := exists_joinLines (.inr hend)
  have hpieces : splitOn (· == '\n') (joinLines ls ++ (line ++ '\n' :: body))
      = ls ++ line :: splitOn (· == '\n') body := by
    rw [splitOn_joinLines hls, splitOn_newline hline]
  have hnone : ∀ l ∈ ls, Pattern.occursIn (methodNamed "render") l = false := fun l hl =>
    (hfront.of_infix (infix_joinLines hl) (by decide)).occursIn_eq_false (by decide)
  have hissues : checkRenderModesFrom 1 (ls ++ line :: splitOn (· == '\n') body) = [] := by
    rw [checkRenderModesFrom_append _ hnone, checkRenderModesFrom, if_pos hmatch]
    exact hbody _ _
  rw [← hpieces] at hissues
  rcases pieces_eq_lines hreturn with hlines | hlines
  · rwa [hlines] at hissues
  · rw [hlines] at hissues
    exact checkRenderModesFrom_append_left hissues

end

end WidgetCompiler.Validation
