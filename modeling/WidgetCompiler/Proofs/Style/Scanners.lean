import WidgetCompiler.Proofs.Style.Reading
import WidgetCompiler.Proofs.Text.Scanner

/-!
# The scanners of a sheet

The readers of preludes, of blocks and of lists of selectors look at up to two characters at a time.
Here each of them is a scanner that takes one and remembers what the character before may have begun
(`preludeEnd?_eq_stopAt`, `blockEnd?_eq_stopAt`, `splitCommas_eq_stopAt`).

The reader of blocks counts braces, and what it does in a text does not depend on how many are open
around it (`run_deeper`): a text that leads from plain text back to it is passed over as a whole
(`whole_of_run`).  Behind a blank a block means what its lines mean written on one (`run_oneLine`).
-/

namespace WidgetCompiler.Style

open Text

/-- A blank is none of the characters that a scanner looks at. -/
theorem ne_of_isBlank {c d : Char} (hc : isBlank c = true) (hd : isBlank d = false) : c ≠ d := by
  rintro rfl
  exact Bool.false_ne_true (hd.symm.trans hc)

theorem isQuote_of_isBlank {c : Char} (hc : isBlank c = true) : isQuote c = false := by
  have hdouble := ne_of_isBlank (d := '"') hc (by decide)
  have hsingle := ne_of_isBlank (d := '\'') hc (by decide)
  simp [isQuote, hdouble, hsingle]

/-- A character that opens or closes a quoted text. -/
abbrev Quote := {c : Char // isQuote c = true}

theorem Quote.ne_of_isBlank (q : Quote) {c : Char} (hc : isBlank c = true) : c ≠ q.1 := by
  rintro rfl
  exact Bool.false_ne_true ((isQuote_of_isBlank hc).symm.trans q.2)

theorem Quote.ne_backslash (q : Quote) : q.1 ≠ '\\' := by
  intro h
  have hq := q.2
  rw [h] at hq
  exact absurd hq (by decide)

/-! ## Preludes -/

/-- How far the reader of a prelude is: the parentheses that are open, the quote, and whether the next
character is taken literally. -/
inductive PreludeMode
  | plain (parens : Nat)
  | quoted (quote : Quote) (parens : Nat)
  | escaped (quote : Quote) (parens : Nat)
deriving DecidableEq

namespace PreludeMode

def quote : PreludeMode → Option Char
  | plain _ => none
  | quoted q _ => some q.1
  | escaped q _ => some q.1

def parens : PreludeMode → Nat
  | plain n => n
  | quoted _ n => n
  | escaped _ n => n

/-- The backslash that has been read. -/
def pending : PreludeMode → Text
  | escaped _ _ => ['\\']
  | _ => []

def settle : PreludeMode → PreludeMode
  | escaped q n => quoted q n
  | m => m

def step : PreludeMode → Char → Option PreludeMode
  | plain n, c =>
    if h : isQuote c = true then some (quoted ⟨c, h⟩ n)
    else if c = '(' then some (plain (n + 1))
    else if c = ')' then some (plain (n - 1))
    else if c = ';' ∧ n = 0 then none
    else if c = '\x7b' ∧ n = 0 then none
    else some (plain n)
  | quoted q n, c => some (if c = '\\' then escaped q n else if c = q.1 then plain n else quoted q n)
  | escaped q n, _ => some (quoted q n)

end PreludeMode

/-- The reader of preludes. -/
def preludes : Scanner PreludeMode where
  step := PreludeMode.step
  settle := PreludeMode.settle
  step_blank m c hc := by
    cases m with
    | plain n =>
      have hopen := ne_of_isBlank (d := '(') hc (by decide)
      have hclose := ne_of_isBlank (d := ')') hc (by decide)
      have hstatement := ne_of_isBlank (d := ';') hc (by decide)
      have hblock := ne_of_isBlank (d := '\x7b') hc (by decide)
      simp [PreludeMode.step, PreludeMode.settle, isQuote_of_isBlank hc, *]
    | quoted q n =>
      have hslash := ne_of_isBlank (d := '\\') hc (by decide)
      simp [PreludeMode.step, PreludeMode.settle, q.ne_of_isBlank hc, hslash]
    | escaped q n => rfl
  settle_settle m := by cases m <;> rfl

/-- What a prelude ends with that ends at the character. -/
def PreludeEnd.ofChar (c : Char) : PreludeEnd := if c = ';' then .statement else .block

theorem preludeEnd?_pending (m : PreludeMode) (s : Text) :
    preludeEnd? m.quote m.parens (m.pending ++ s)
      = (preludes.stopAt m s).map fun (t, c, rest) =>
        (m.pending ++ t, PreludeEnd.ofChar c, rest) := by
  induction s generalizing m with
  | nil => cases m <;> simp [Scanner.stopAt, PreludeMode.pending, PreludeMode.quote, preludeEnd?]
  | cons c s ih =>
    cases m with
    | plain n =>
      have ihQuoted (q : Quote) := ih (.quoted q n)
      have ihPlain (k : Nat) := ih (.plain k)
      simp only [PreludeMode.quote, PreludeMode.parens, PreludeMode.pending, List.nil_append]
        at ihQuoted ihPlain ⊢
      rw [preludeEnd?.eq_def, Scanner.stopAt]
      simp only [preludes, PreludeMode.step]
      split
      · next hquote =>
        rw [ihQuoted ⟨c, hquote⟩]
        simp [preludes, Function.comp_def]
      · split
        · simp [ihPlain, preludes, Function.comp_def]
        · split
          · simp [ihPlain, preludes, Function.comp_def]
          · split
            · next h => simp [PreludeEnd.ofChar, h.1]
            · split
              · next h => simp [PreludeEnd.ofChar, h.1]
              · simp [ihPlain, preludes, Function.comp_def]
    | quoted q n =>
      have ihEscaped := ih (.escaped q n)
      have ihQuoted := ih (.quoted q n)
      have ihPlain := ih (.plain n)
      simp only [PreludeMode.quote, PreludeMode.parens, PreludeMode.pending, List.nil_append,
        List.cons_append] at ihEscaped ihQuoted ihPlain ⊢
      rw [Scanner.stopAt]
      simp only [preludes, PreludeMode.step] at ihEscaped ihQuoted ihPlain ⊢
      by_cases hslash : c = '\\'
      · subst hslash
        rw [ihEscaped]
        simp [Function.comp_def]
      · rw [preludeEnd?.eq_def]
        by_cases hquote : c = q.1
        · simp [hquote, q.ne_backslash, ihPlain, Function.comp_def]
        · simp [hslash, hquote, ihQuoted, Function.comp_def]
    | escaped q n =>
      have ihQuoted := ih (.quoted q n)
      simp only [PreludeMode.quote, PreludeMode.parens, PreludeMode.pending, List.nil_append,
        List.cons_append] at ihQuoted ⊢
      rw [preludeEnd?, Scanner.stopAt, if_pos rfl]
      simp [ihQuoted, preludes, PreludeMode.step, Function.comp_def]

/-- The reader of a prelude is a scanner. -/
theorem preludeEnd?_eq_stopAt (s : Text) : preludeEnd? none 0 s
    = (preludes.stopAt (.plain 0) s).map fun (t, c, rest) => (t, PreludeEnd.ofChar c, rest) :=
  preludeEnd?_pending (.plain 0) s

/-! ## Blocks -/

/-- What the reader of a block is in, with what a comment may begin or end with that has just been
read. -/
inductive BlockMode
  | plain
  | slash
  | quoted (quote : Quote)
  | escaped (quote : Quote)
  | comment
  | star
deriving DecidableEq

namespace BlockMode

def state : BlockMode → BlockState
  | plain | slash => .plain
  | quoted q | escaped q => .quoted q.1
  | comment | star => .comment

/-- The character that has been read and not been counted. -/
def pending : BlockMode → Text
  | slash => ['/']
  | escaped _ => ['\\']
  | star => ['*']
  | _ => []

def settle : BlockMode → BlockMode
  | slash => plain
  | escaped q => quoted q
  | star => comment
  | m => m

/-- A character in plain text, within `depth + 1` open blocks. -/
def stepPlain (depth : Nat) (c : Char) : Option (BlockMode × Nat) :=
  if c = '/' then some (slash, depth)
  else if h : isQuote c = true then some (quoted ⟨c, h⟩, depth)
  else if c = '\x7b' then some (plain, depth + 1)
  else if c = '\x7d' then if depth = 0 then none else some (plain, depth - 1)
  else some (plain, depth)

def step : BlockMode × Nat → Char → Option (BlockMode × Nat)
  | (plain, depth), c => stepPlain depth c
  | (slash, depth), c => if c = '*' then some (comment, depth) else stepPlain depth c
  | (quoted q, depth), c =>
    some (if c = '\\' then escaped q else if c = q.1 then plain else quoted q, depth)
  | (escaped q, depth), _ => some (quoted q, depth)
  | (comment, depth), c => some (if c = '*' then star else comment, depth)
  | (star, depth), c => some (if c = '/' then plain else if c = '*' then star else comment, depth)

theorem stepPlain_blank {depth : Nat} {c : Char} (hc : isBlank c = true) :
    stepPlain depth c = some (plain, depth) := by
  have hslash := ne_of_isBlank (d := '/') hc (by decide)
  have hopen := ne_of_isBlank (d := '\x7b') hc (by decide)
  have hclose := ne_of_isBlank (d := '\x7d') hc (by decide)
  simp [stepPlain, isQuote_of_isBlank hc, *]

end BlockMode

/-- The reader of blocks; the number is that of the blocks that are open in the outermost one. -/
def blocks : Scanner (BlockMode × Nat) where
  step := BlockMode.step
  settle m := (m.1.settle, m.2)
  step_blank m c hc := by
    have hstar := ne_of_isBlank (d := '*') hc (by decide)
    have hslash := ne_of_isBlank (d := '/') hc (by decide)
    have hback := ne_of_isBlank (d := '\\') hc (by decide)
    obtain ⟨mode, depth⟩ := m
    cases mode with
    | plain => exact BlockMode.stepPlain_blank hc
    | slash => exact (if_neg hstar).trans (BlockMode.stepPlain_blank hc)
    | quoted q => simp [BlockMode.step, BlockMode.settle, q.ne_of_isBlank hc, hback]
    | escaped q => rfl
    | comment => simp [BlockMode.step, BlockMode.settle, hstar]
    | star => simp [BlockMode.step, BlockMode.settle, hstar, hslash]
  settle_settle m := by
    obtain ⟨mode, depth⟩ := m
    cases mode <;> rfl

/-- From each of the modes the reader of a block does on a text what the scanner does. -/
def ScansBlocks (s : Text) : Prop :=
  ∀ (m : BlockMode) (depth : Nat), blockEnd? m.state depth (m.pending ++ s)
    = (blocks.stopAt (m, depth) s).map fun (t, _, rest) => (m.pending ++ t, rest)

section

variable {s : Text}

/-- A slash with which no comment begins. -/
theorem blockEnd?_slash (depth : Nat) (hs : ∀ s', s = '*' :: s' → False) :
    blockEnd? .plain depth ('/' :: s)
      = (blockEnd? .plain depth s).map fun (inner, rest) => ('/' :: inner, rest) := by
  rw [blockEnd?_cons fun s' _ => hs s']
  simp [isQuote]

namespace ScansBlocks

theorem nil : ScansBlocks [] := by
  intro m depth
  cases m with
  | slash =>
    refine (blockEnd?_slash depth fun _ h => ?_).trans ?_
    · simp at h
    · simp [Scanner.stopAt, blockEnd?]
  | _ => simp [Scanner.stopAt, BlockMode.pending, BlockMode.state, blockEnd?]

theorem cons_plain (h : ScansBlocks s) (c : Char) (depth : Nat) :
    blockEnd? .plain depth (c :: s)
      = (blocks.stopAt (.plain, depth) (c :: s)).map fun (t, _, rest) => (t, rest) := by
  by_cases hc : c = '/'
  · subst hc
    have hslash := h .slash depth
    simp only [BlockMode.state, BlockMode.pending, List.cons_append, List.nil_append] at hslash
    rw [hslash, Scanner.stopAt]
    simp [blocks, BlockMode.step, BlockMode.stepPlain, Function.comp_def]
  · have hplain (k : Nat) := h .plain k
    have hquoted (q : Quote) := h (.quoted q) depth
    simp only [BlockMode.state, BlockMode.pending, List.nil_append] at hplain hquoted
    rw [blockEnd?_cons fun _ h => absurd h hc, Scanner.stopAt]
    simp only [blocks, BlockMode.step, BlockMode.stepPlain, if_neg hc] at hplain hquoted ⊢
    split
    · next hend => simp [hend.1, hend.2, isQuote]
    · next hend =>
      by_cases hquote : isQuote c = true
      · have hopen : c ≠ '\x7b' := by
          rintro rfl
          exact absurd hquote (by decide)
        have hclose : c ≠ '\x7d' := by
          rintro rfl
          exact absurd hquote (by decide)
        simp [hquote, hopen, hclose, hquoted ⟨c, hquote⟩, Function.comp_def]
      · by_cases hopen : c = '\x7b'
        · subst hopen
          simp [isQuote, hplain, Function.comp_def]
        · by_cases hclose : c = '\x7d'
          · have hdepth : depth ≠ 0 := fun h => hend ⟨hclose, h⟩
            simp [hclose, hdepth, isQuote, hplain, Function.comp_def]
          · simp [hquote, hopen, hclose, hplain, Function.comp_def]

theorem cons_comment (h : ScansBlocks s) (c : Char) (depth : Nat) :
    blockEnd? .comment depth (c :: s)
      = (blocks.stopAt (.comment, depth) (c :: s)).map fun (t, _, rest) => (t, rest) := by
  have hinside := h .star depth
  have hcomment := h .comment depth
  simp only [BlockMode.state, BlockMode.pending, List.nil_append, List.cons_append]
    at hinside hcomment
  rw [Scanner.stopAt]
  simp only [blocks, BlockMode.step] at hinside hcomment ⊢
  by_cases hstar : c = '*'
  · subst hstar
    rw [hinside]
    simp [Function.comp_def]
  · rw [blockEnd?.eq_def]
    simp [hstar, hcomment, Function.comp_def]

theorem cons_quoted (h : ScansBlocks s) (c : Char) (q : Quote) (depth : Nat) :
    blockEnd? (.quoted q.1) depth (c :: s)
      = (blocks.stopAt (.quoted q, depth) (c :: s)).map fun (t, _, rest) => (t, rest) := by
  have hescaped := h (.escaped q) depth
  have hquoted := h (.quoted q) depth
  have hplain := h .plain depth
  simp only [BlockMode.state, BlockMode.pending, List.nil_append, List.cons_append]
    at hescaped hquoted hplain
  rw [Scanner.stopAt]
  simp only [blocks, BlockMode.step] at hescaped hquoted hplain ⊢
  by_cases hback : c = '\\'
  · subst hback
    rw [hescaped]
    simp [Function.comp_def]
  · rw [blockEnd?.eq_def]
    by_cases hquote : c = q.1
    · simp [hquote, q.ne_backslash, hplain, Function.comp_def]
    · simp [hback, hquote, hquoted, Function.comp_def]

/-- Where a character is pending, it depends on the next one what it is. -/
theorem cons (h : ScansBlocks s) (c : Char) : ScansBlocks (c :: s) := by
  intro m depth
  cases m with
  | plain => exact h.cons_plain c depth
  | comment => exact h.cons_comment c depth
  | quoted q => exact h.cons_quoted c q depth
  | slash =>
    simp only [BlockMode.state, BlockMode.pending, List.cons_append, List.nil_append]
    rw [Scanner.stopAt]
    by_cases hstar : c = '*'
    · subst hstar
      have hcomment := h .comment depth
      simp only [BlockMode.state, BlockMode.pending, List.nil_append] at hcomment
      rw [blockEnd?, hcomment]
      simp [blocks, BlockMode.step, Function.comp_def]
    · rw [blockEnd?_slash depth fun _ h => hstar (List.cons.inj h).1, h.cons_plain, Scanner.stopAt]
      simp only [blocks, BlockMode.step, if_neg hstar]
      cases BlockMode.stepPlain depth c with
      | none => simp
      | some m' => simp [Function.comp_def]
  | escaped q =>
    have hquoted := h (.quoted q) depth
    simp only [BlockMode.state, BlockMode.pending, List.nil_append, List.cons_append] at hquoted ⊢
    rw [blockEnd?, Scanner.stopAt, if_pos rfl]
    simp [hquoted, blocks, BlockMode.step, Function.comp_def]
  | star =>
    have hplain := h .plain depth
    simp only [BlockMode.state, BlockMode.pending, List.nil_append, List.cons_append] at hplain ⊢
    rw [Scanner.stopAt]
    by_cases hend : c = '/'
    · subst hend
      rw [blockEnd?, hplain]
      simp [blocks, BlockMode.step, Function.comp_def]
    · have hstay : blockEnd? .comment depth ('*' :: c :: s)
          = (blockEnd? .comment depth (c :: s)).map fun (inner, rest) => ('*' :: inner, rest) := by
        rw [blockEnd?]
        rintro s' - h
        exact hend (List.cons.inj h).1
      rw [hstay, h.cons_comment, Scanner.stopAt]
      simp [blocks, BlockMode.step, hend, Function.comp_def]

end ScansBlocks

theorem scansBlocks (s : Text) : ScansBlocks s := by
  induction s with
  | nil => exact .nil
  | cons c s ih => exact ih.cons c

end

/-- The reader of a block is a scanner. -/
theorem blockEnd?_eq_stopAt (depth : Nat) (s : Text) : blockEnd? .plain depth s
    = (blocks.stopAt (.plain, depth) s).map fun (t, _, rest) => (t, rest) :=
  scansBlocks s .plain depth

section

variable {s t : Text} {m m' : BlockMode}

/-- The step of the scanner does not depend on the blocks around those that it leaves. -/
theorem BlockMode.step_deeper {depth depth' : Nat} {c : Char}
    (h : BlockMode.step (m, depth) c = some (m', depth')) (k : Nat) :
    BlockMode.step (m, depth + k) c = some (m', depth' + k) := by
  have hplain (h : BlockMode.stepPlain depth c = some (m', depth')) :
      BlockMode.stepPlain (depth + k) c = some (m', depth' + k) := by
    simp only [BlockMode.stepPlain] at h ⊢
    split at h
    · simp_all
    · split at h
      · simp_all
      · split at h
        · obtain ⟨rfl, rfl⟩ := by simpa using h
          simp_all [Nat.add_right_comm]
        · split at h
          · split at h
            · simp at h
            · next hdepth =>
              obtain ⟨rfl, rfl⟩ := by simpa using h
              have hsub : depth + k - 1 = depth - 1 + k := by omega
              simp_all
          · simp_all
  cases m with
  | plain => exact hplain h
  | slash =>
    simp only [BlockMode.step] at h ⊢
    split at h
    · simp_all
    · next hstar =>
      rw [if_neg hstar]
      exact hplain h
  | _ => simp_all [BlockMode.step]

theorem run_deeper {depth depth' : Nat} (h : blocks.run (m, depth) t = some (m', depth'))
    (k : Nat) : blocks.run (m, depth + k) t = some (m', depth' + k) := by
  induction t generalizing m depth with
  | nil =>
    obtain ⟨rfl, rfl⟩ := by simpa using h
    rfl
  | cons c t ih =>
    rw [Scanner.run_cons] at h ⊢
    obtain ⟨⟨m₁, depth₁⟩, hstep, ht⟩ := Option.bind_eq_some_iff.1 h
    have hstep' : blocks.step (m, depth + k) c = some (m₁, depth₁ + k) :=
      BlockMode.step_deeper hstep k
    rw [hstep']
    exact ih ht

/-- A text that leads from plain text back to it is passed over as a whole. -/
theorem whole_of_run (h : blocks.run (.plain, 0) t = some (.plain, 0)) : Whole t := by
  intro depth rest
  have hrun := run_deeper h depth
  rw [Nat.zero_add] at hrun
  rw [blockEnd?_eq_stopAt, Scanner.stopAt_append hrun, blockEnd?_eq_stopAt, Option.map_map,
    Option.map_map]
  rfl

end

/-! ### The lines of a block -/

/-- What ends a line is blank, so declarations are joined from what stands between the line feeds. -/
theorem oneLine_eq_join (t : Text) :
    oneLine t = join [' '] (((splitOn (· == '\n') t).map trim).filter (! ·.isEmpty)) := by
  have hreturn (l : Text) : trim (dropReturn l) = trim l := by
    rw [dropReturn]
    split
    · next hl =>
      obtain ⟨u, rfl⟩ := List.getLast?_eq_some_iff.1 hl
      rw [List.dropLast_concat, trim_append_right rfl]
    · rfl
  rw [oneLine, lines]
  obtain ⟨init, last, hpieces⟩ :=
    (List.eq_nil_or_concat (splitOn (· == '\n') t)).resolve_left (splitOn_ne_nil _ t)
  simp only [List.concat_eq_append] at hpieces
  rw [hpieces]
  cases last with
  | nil => simp [hreturn, Function.comp_def]
  | cons c u => simp [hreturn, Function.comp_def]

/-- Behind a blank the lines of a block mean the same on one line. -/
theorem run_oneLine {σ : Type} {S : Scanner σ} {m : σ} {gap : Text} (hm : S.settle m = m)
    (h : allBlank gap = true) (hne : gap ≠ [])
    (t : Text) : S.run m (oneLine t ++ gap) = S.run m (t ++ gap) := by
  rw [oneLine_eq_join, Scanner.run_join_trim hm h hne, join_splitOn]

/-! ## Lists of selectors -/

/-- How far the reader of a list of selectors is: the brackets that are open, and the quote. -/
inductive ListMode
  | plain (depth : Nat)
  | quoted (quote : Quote) (depth : Nat)
deriving DecidableEq

namespace ListMode

def quote : ListMode → Option Char
  | plain _ => none
  | quoted q _ => some q.1

def depth : ListMode → Nat
  | plain n => n
  | quoted _ n => n

def step : ListMode → Char → Option ListMode
  | plain n, c =>
    if h : isQuote c = true then some (quoted ⟨c, h⟩ n)
    else if c = '(' ∨ c = '[' then some (plain (n + 1))
    else if c = ')' ∨ c = ']' then some (plain (n - 1))
    else if c = ',' ∧ n = 0 then none
    else some (plain n)
  | quoted q n, c => some (if c = q.1 then plain n else quoted q n)

end ListMode

/-- The reader of a selector in a list. -/
def selectors : Scanner ListMode where
  step := ListMode.step
  settle m := m
  step_blank m c hc := by
    cases m with
    | plain n =>
      have hround := ne_of_isBlank (d := '(') hc (by decide)
      have hround' := ne_of_isBlank (d := ')') hc (by decide)
      have hsquare := ne_of_isBlank (d := '[') hc (by decide)
      have hsquare' := ne_of_isBlank (d := ']') hc (by decide)
      have hcomma := ne_of_isBlank (d := ',') hc (by decide)
      simp [ListMode.step, isQuote_of_isBlank hc, *]
    | quoted q n => simp [ListMode.step, q.ne_of_isBlank hc]
  settle_settle _ := rfl

/-- The reader of a list of selectors is a scanner that begins again behind each comma. -/
theorem splitCommas_eq_stopAt (m : ListMode) (s : Text) : splitCommas m.quote m.depth s
    = match selectors.stopAt m s with
      | none => [s]
      | some (t, _, rest) => t :: splitCommas none 0 rest := by
  induction s generalizing m with
  | nil => simp [splitCommas, Scanner.stopAt]
  | cons c s ih =>
    -- where the scanner goes on, the character is the first of the selector
    have hstep (m' : ListMode) (hm : selectors.step m c = some m')
        (h : splitCommas m.quote m.depth (c :: s) = extendFirst c (splitCommas m'.quote m'.depth s)) :
        splitCommas m.quote m.depth (c :: s) = match selectors.stopAt m (c :: s) with
          | none => [c :: s]
          | some (t, _, rest) => t :: splitCommas none 0 rest := by
      rw [h, ih m', Scanner.stopAt, hm]
      cases hstop : selectors.stopAt m' s with
      | none => simp [hstop]
      | some stop => simp [hstop]
    cases m with
    | plain n =>
      by_cases hquote : isQuote c = true
      · refine hstep (.quoted ⟨c, hquote⟩ n) (dif_pos hquote) ?_
        rw [ListMode.quote, splitCommas]
        exact if_pos hquote
      by_cases hopen : c = '(' ∨ c = '['
      · refine hstep (.plain (n + 1)) ((dif_neg hquote).trans (if_pos hopen)) ?_
        rw [ListMode.quote, splitCommas]
        exact (if_neg hquote).trans (if_pos hopen)
      by_cases hclose : c = ')' ∨ c = ']'
      · refine hstep (.plain (n - 1))
          ((dif_neg hquote).trans ((if_neg hopen).trans (if_pos hclose))) ?_
        rw [ListMode.quote, splitCommas]
        exact (if_neg hquote).trans ((if_neg hopen).trans (if_pos hclose))
      by_cases hcomma : c = ',' ∧ n = 0
      · obtain ⟨rfl, rfl⟩ := hcomma
        simp [ListMode.quote, ListMode.depth, splitCommas, Scanner.stopAt, selectors, ListMode.step,
          isQuote]
      · refine hstep (.plain n)
          ((dif_neg hquote).trans ((if_neg hopen).trans ((if_neg hclose).trans (if_neg hcomma)))) ?_
        rw [ListMode.quote, splitCommas]
        exact (if_neg hquote).trans ((if_neg hopen).trans ((if_neg hclose).trans (if_neg hcomma)))
    | quoted q n =>
      by_cases hquote : c = q.1
      · refine hstep (.plain n) (congrArg some (if_pos hquote)) ?_
        show splitCommas (some q.1) n (c :: s) = _
        rw [splitCommas, if_pos hquote]
        rfl
      · refine hstep (.quoted q n) (congrArg some (if_neg hquote)) ?_
        show splitCommas (some q.1) n (c :: s) = _
        rw [splitCommas, if_neg hquote]
        rfl

end WidgetCompiler.Style
