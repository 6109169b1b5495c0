import WidgetCompiler.Proofs.Text.Blank
import WidgetCompiler.Proofs.Text.Seam
import WidgetCompiler.Style.Reader

/-!
# What reading takes off the front of a sheet

Each of the scanners of the reader counts brackets of its own kind and goes on at a place that says
nothing about the text behind it.  So a text whose brackets are balanced is passed over as a whole,
whatever follows it: a prelude up to the mark that ends it (`preludeEnd?_append`), and what stands in
a block up to the brace that ends it (`Whole`), where comments may hold braces and quotes.

From this the node at the front of a sheet is read, one lemma for each kind (`parse_comment`,
`parse_statement`, `parse_rule`, `parse_group`, `parse_block`).
-/

namespace WidgetCompiler.Style

open Text

variable {c : Char} {s t prelude body inner rest name : Text}

/-! ## Balanced brackets -/

/-- Whether each closing bracket of a text behind `depth` open ones closes one of them, and none is
left open. -/
def closes (opening closing : Char) : Nat → Text → Bool
  | depth, [] => depth == 0
  | depth, c :: t =>
    if c = opening then closes opening closing (depth + 1) t
    else if c = closing then depth != 0 && closes opening closing (depth - 1) t
    else closes opening closing depth t

/-- The brackets of a text belong together. -/
def Balanced (opening closing : Char) (t : Text) : Prop := closes opening closing 0 t = true

instance (opening closing : Char) (t : Text) : Decidable (Balanced opening closing t) :=
  inferInstanceAs (Decidable (_ = true))

section

variable {opening closing : Char}

theorem closes_append {depth : Nat} (hs : closes opening closing depth s = true) (t : Text) :
    closes opening closing depth (s ++ t) = closes opening closing 0 t := by
  fun_induction closes opening closing depth s with
  | case1 depth =>
    obtain rfl : depth = 0 := by simpa using hs
    rfl
  | case2 depth s ih => rw [List.cons_append, closes, if_pos rfl, ih hs]
  | case3 depth s hopen ih =>
    obtain ⟨hdepth, hs⟩ := Bool.and_eq_true_iff.1 hs
    rw [List.cons_append, closes, if_neg hopen, if_pos rfl, hdepth, ih hs, Bool.true_and]
  | case4 depth c s hopen hclose ih =>
    rw [List.cons_append, closes, if_neg hopen, if_neg hclose, ih hs]

namespace Balanced

theorem append (hs : Balanced opening closing s) (ht : Balanced opening closing t) :
    Balanced opening closing (s ++ t) := (closes_append hs t).trans ht

theorem of_not_mem (hopen : opening ∉ t) (hclose : closing ∉ t) : Balanced opening closing t := by
  induction t with
  | nil => rfl
  | cons c t ih =>
    obtain ⟨hc, hopen⟩ : opening ≠ c ∧ opening ∉ t := by simpa using hopen
    obtain ⟨hc', hclose⟩ : closing ≠ c ∧ closing ∉ t := by simpa using hclose
    rw [Balanced, closes, if_neg (Ne.symm hc), if_neg (Ne.symm hc')]
    exact ih hopen hclose

end Balanced

end

/-! ## Preludes -/

/-- The characters that do more in a sheet than stand in a prelude. -/
def preludeMarks : Text := "\x7b\x7d;/\"'"

/-- The text can stand in a prelude, and no parenthesis is left open behind it. -/
structure InPrelude (t : Text) : Prop where
  marks : ∀ c ∈ t, c ∉ preludeMarks
  parentheses : Balanced '(' ')' t

theorem InPrelude.append (hs : InPrelude s) (ht : InPrelude t) : InPrelude (s ++ t) where
  marks c hc := (List.mem_append.1 hc).elim (hs.marks c) (ht.marks c)
  parentheses := hs.parentheses.append ht.parentheses

/-- A prelude goes on behind text that can stand in one. -/
theorem preludeEnd?_append_of_closes {parens : Nat} (hmarks : ∀ c ∈ t, c ∉ preludeMarks)
    (ht : closes '(' ')' parens t = true) (rest : Text) :
    preludeEnd? none parens (t ++ rest) = (preludeEnd? none 0 rest).map
      fun (prelude, stop, behind) => (t ++ prelude, stop, behind) := by
  induction t generalizing parens with
  | nil =>
    obtain rfl : parens = 0 := by simpa [closes] using ht
    simp
  | cons c t ih =>
    have hmarks' : ∀ d ∈ t, d ∉ preludeMarks := fun d hd => hmarks d (by simp [hd])
    obtain ⟨hopen, -, hstatement, -, hquote⟩ : c ≠ '\x7b' ∧ c ≠ '\x7d' ∧ c ≠ ';' ∧ c ≠ '/'
        ∧ ¬ isQuote c = true := by
      simpa [preludeMarks, isQuote] using hmarks c (by simp)
    rw [List.cons_append, preludeEnd?.eq_def]
    simp only [hquote, hopen, hstatement, false_and, if_false, Bool.false_eq_true]
    by_cases hparen : c = '('
    · rw [closes, if_pos hparen] at ht
      simp only [if_pos hparen, ih hmarks' ht, Option.map_map]
      rfl
    · by_cases hclose : c = ')'
      · rw [closes, if_neg hparen, if_pos hclose] at ht
        obtain ⟨-, ht⟩ := Bool.and_eq_true_iff.1 ht
        simp only [if_neg hparen, if_pos hclose, ih hmarks' ht, Option.map_map]
        rfl
      · rw [closes, if_neg hparen, if_neg hclose] at ht
        simp only [if_neg hparen, if_neg hclose, ih hmarks' ht, Option.map_map]
        rfl

theorem preludeEnd?_append (ht : InPrelude t) (stop : PreludeEnd) (rest : Text) :
    preludeEnd? none 0 (t ++ stop.char :: rest) = some (t, stop, rest) := by
  rw [preludeEnd?_append_of_closes ht.marks ht.parentheses]
  cases stop with
  | statement => simp [preludeEnd?, PreludeEnd.char, isQuote]
  | block => simp [preludeEnd?, PreludeEnd.char, isQuote]

/-! ## Blocks -/

/-- A character in a block with which no comment begins. -/
theorem blockEnd?_cons {depth : Nat} (h : ∀ s', c = '/' → s = '*' :: s' → False) :
    blockEnd? .plain depth (c :: s)
      = if c = '\x7d' ∧ depth = 0 then some ([], s)
        else (blockEnd? (if isQuote c then .quoted c else .plain)
          (if c = '\x7b' then depth + 1 else if c = '\x7d' then depth - 1 else depth) s).map
            fun (inner, behind) => (c :: inner, behind) := by
  rw [blockEnd?.eq_def]
  simp only
  by_cases hquote : isQuote c = true
  · have hbraces : ¬ isQuote '\x7b' = true ∧ ¬ isQuote '\x7d' = true := by decide
    have hopen : c ≠ '\x7b' := fun e => hbraces.1 (e ▸ hquote)
    have hclose : c ≠ '\x7d' := fun e => hbraces.2 (e ▸ hquote)
    simp [hquote, hopen, hclose]
  · by_cases hclose : c = '\x7d'
    · subst hclose
      cases depth <;> simp [hquote]
    · simp only [if_neg hquote, hclose, false_and, if_false]
      split <;> rfl

/-- In a block the text is passed over as a whole: it opens and closes blocks, quotes and comments
only within itself. -/
def Whole (t : Text) : Prop :=
  ∀ depth rest, blockEnd? .plain depth (t ++ rest)
    = (blockEnd? .plain depth rest).map fun (inner, behind) => (t ++ inner, behind)

theorem Whole.nil : Whole [] := fun depth rest => by simp

theorem Whole.append (hs : Whole s) (ht : Whole t) : Whole (s ++ t) := by
  intro depth rest
  rw [List.append_assoc, hs, ht, Option.map_map]
  simp only [Function.comp_def, List.append_assoc]

/-- Text without quotes and comments leads out of the blocks that it closes, if no comment begins
where it ends. -/
theorem blockEnd?_append {depth opened : Nat} (hquotes : ∀ c ∈ t, isQuote c = false)
    (hcomment : Lacks "/*" t) (hbraces : closes '\x7b' '\x7d' opened t = true)
    (hrest : ∀ d ∈ rest.head?, d ≠ '*') :
    blockEnd? .plain (depth + opened) (t ++ rest)
      = (blockEnd? .plain depth rest).map fun (inner, behind) => (t ++ inner, behind) := by
  induction t generalizing opened with
  | nil =>
    obtain rfl : opened = 0 := by simpa [closes] using hbraces
    simp
  | cons c t ih =>
    have hquotes' : ∀ d ∈ t, isQuote d = false := fun d hd => hquotes d (by simp [hd])
    have hcomment' : Lacks "/*" t := fun h => hcomment (h.trans (List.suffix_cons c t).isInfix)
    have hquote : ¬ isQuote c = true := by simp [hquotes c (by simp)]
    have hbegins : ∀ behind, c = '/' → t ++ rest = '*' :: behind → False := by
      rintro behind rfl hbehind
      cases t with
      | nil => exact hrest '*' (by rw [← List.nil_append rest, hbehind]; rfl) rfl
      | cons d t =>
        obtain rfl : d = '*' := (List.cons.inj hbehind).1
        exact hcomment (List.prefix_append ("/*" : Text) t).isInfix
    rw [List.cons_append, blockEnd?_cons hbegins, if_neg hquote]
    by_cases hopen : c = '\x7b'
    · rw [closes, if_pos hopen] at hbraces
      have hclose : ¬ (c = '\x7d' ∧ depth + opened = 0) := by simp [hopen]
      rw [if_neg hclose, if_pos hopen, Nat.add_assoc, ih hquotes' hcomment' hbraces, Option.map_map]
      rfl
    · rw [closes, if_neg hopen] at hbraces
      by_cases hclose : c = '\x7d'
      · rw [if_pos hclose, Bool.and_eq_true, bne_iff_ne] at hbraces
        have hinside : ¬ (c = '\x7d' ∧ depth + opened = 0) := by omega
        have hdepth : depth + opened - 1 = depth + (opened - 1) := by omega
        rw [if_neg hinside, if_neg hopen, if_pos hclose, hdepth, ih hquotes' hcomment' hbraces.2,
          Option.map_map]
        rfl
      · rw [if_neg hclose] at hbraces
        have hinside : ¬ (c = '\x7d' ∧ depth + opened = 0) := fun h => hclose h.1
        rw [if_neg hinside, if_neg hopen, if_neg hclose, ih hquotes' hcomment' hbraces, Option.map_map]
        rfl

theorem blockEnd?_append_of_balanced (hquotes : ∀ c ∈ t, isQuote c = false)
    (hcomment : Lacks "/*" t) (hbraces : Balanced '\x7b' '\x7d' t)
    (hrest : ∀ d ∈ rest.head?, d ≠ '*') (depth : Nat) :
    blockEnd? .plain depth (t ++ rest)
      = (blockEnd? .plain depth rest).map fun (inner, behind) => (t ++ inner, behind) :=
  blockEnd?_append hquotes hcomment hbraces hrest

namespace Whole

/-- Text without quotes and comments in which braces belong together, up to a character that neither
begins nor goes on a comment. -/
theorem concat (hquotes : ∀ c ∈ t, isQuote c = false) (hcomment : Lacks "/*" t)
    (hbraces : Balanced '\x7b' '\x7d' t) (hc : c ∉ ("*/\x7b\x7d\"'" : Text)) :
    Whole (t ++ [c]) := by
  intro depth rest
  have hne : c ≠ '*' ∧ c ≠ '/' ∧ c ≠ '\x7b' ∧ c ≠ '\x7d' ∧ ¬ isQuote c = true := by
    simpa [isQuote] using hc
  have hlast : blockEnd? .plain depth (c :: rest)
      = (blockEnd? .plain depth rest).map fun (inner, behind) => (c :: inner, behind) := by
    rw [blockEnd?_cons fun _ h _ => hne.2.1 h]
    simp [hne]
  have hrest : ∀ d ∈ (c :: rest).head?, d ≠ '*' := by simpa using hne.1
  rw [List.append_assoc, List.singleton_append,
    blockEnd?_append_of_balanced hquotes hcomment hbraces hrest, hlast, Option.map_map]
  simp [Function.comp_def]

/-- Text that has no mark in a block is passed over character by character. -/
theorem of_not_mem (h : ∀ c ∈ t, c ∉ ("/\x7b\x7d\"'" : Text)) : Whole t := by
  intro depth rest
  induction t with
  | nil => simp
  | cons c t ih =>
    have hne : c ≠ '/' ∧ c ≠ '\x7b' ∧ c ≠ '\x7d' ∧ ¬ isQuote c = true := by
      simpa [isQuote] using h c (by simp)
    rw [List.cons_append, blockEnd?_cons fun _ hslash _ => hne.1 hslash]
    simp [hne, ih fun d hd => h d (by simp [hd]), Function.comp_def]

theorem of_inPrelude (h : InPrelude t) : Whole t := by
  refine of_not_mem fun c hc hm => h.marks c hc ?_
  have hsubset : ∀ c ∈ ("/\x7b\x7d\"'" : Text), c ∈ preludeMarks := by decide
  exact hsubset c hm

/-- A block within a block. -/
theorem braced (h : ∀ depth rest, blockEnd? .plain depth (t ++ '\x7d' :: rest)
      = (blockEnd? .plain depth ('\x7d' :: rest)).map fun (inner, behind) => (t ++ inner, behind)) :
    Whole ('\x7b' :: (t ++ ['\x7d'])) := by
  intro depth rest
  have hopen (u : Text) : blockEnd? .plain depth ('\x7b' :: u)
      = (blockEnd? .plain (depth + 1) u).map fun (inner, behind) => ('\x7b' :: inner, behind) := by
    rw [blockEnd?_cons fun _ h _ => absurd h (by decide)]
    simp [isQuote]
  have hclose : blockEnd? .plain (depth + 1) ('\x7d' :: rest)
      = (blockEnd? .plain depth rest).map fun (inner, behind) => ('\x7d' :: inner, behind) := by
    rw [blockEnd?_cons fun _ h _ => absurd h (by decide)]
    simp [isQuote]
  rw [List.cons_append, List.append_assoc, List.singleton_append, hopen, h, hclose, Option.map_map,
    Option.map_map]
  simp [Function.comp_def]

/-- A comment, whatever stands in it. -/
theorem comment (h : Lacks "*/" t) : Whole ("/*" ++ t ++ "*/") := by
  intro depth rest
  have hinside : blockEnd? .comment depth (t ++ '*' :: '/' :: rest)
      = (blockEnd? .plain depth rest).map fun (inner, behind) => (t ++ '*' :: '/' :: inner, behind) := by
    induction t with
    | nil => rw [List.nil_append, blockEnd?]; rfl
    | cons c t ih =>
      have ht : Lacks "*/" t := fun hm => h (hm.trans (List.suffix_cons c t).isInfix)
      have hstep (u : Text) (hu : ∀ u', c = '*' → u = '/' :: u' → False) :
          blockEnd? .comment depth (c :: u)
            = (blockEnd? .comment depth u).map fun (inner, behind) => (c :: inner, behind) := by
        rw [blockEnd?.eq_def]
        simp only
      rw [List.cons_append, hstep, ih ht, Option.map_map]
      · simp [Function.comp_def]
      · rintro behind rfl hbehind
        cases t with
        | nil => exact absurd (List.cons.inj hbehind).1 (by decide)
        | cons d t =>
          obtain rfl : d = '/' := (List.cons.inj hbehind).1
          exact h (List.prefix_append ("*/" : Text) t).isInfix
  have hshape : ("/*" ++ t ++ "*/" : Text) ++ rest = '/' :: '*' :: (t ++ '*' :: '/' :: rest) := by
    simp
  rw [hshape, blockEnd?, hinside, Option.map_map]
  simp [Function.comp_def]

end Whole

/-- A block ends behind a text that is passed over as a whole. -/
theorem blockEnd?_whole (h : Whole t) (rest : Text) :
    blockEnd? .plain 0 (t ++ '\x7d' :: rest) = some (t, rest) := by
  rw [h]
  simp [blockEnd?, isQuote]

/-! ## The node at the front -/

namespace Sheet

variable {gap : Text}

/-- Blanks before a node are passed over. -/
theorem parse_gap (h : ∀ c ∈ gap, isAsciiBlank c = true) (s : Text) : parse (gap ++ s) = parse s := by
  induction gap with
  | nil => rfl
  | cons c gap ih =>
    rw [List.cons_append, parse, if_pos (by simp [h c (by simp)])]
    exact ih fun d hd => h d (by simp [hd])

/-- A text that begins with a comment that ends. -/
theorem parse_of_comment (hc : (isAsciiBlank c || c == '\x7d') = false)
    (hafter : after? "/*" (c :: t) = some body) (hcut : cut? "*/" body = some (inner, rest)) :
    parse (c :: t) = .raw ((c :: t).take (t.length + 1 - rest.length)) :: parse rest := by
  rw [parse, if_neg (by simp [hc])]
  split
  · rename_i h
    cases hafter.symm.trans h
    split
    all_goals
      rename_i h
      cases hcut.symm.trans h
    rfl
  · rename_i h
    cases hafter.symm.trans h

/-- A text that begins with a comment. -/
theorem parse_comment (h : Lacks "*/" t) (rest : Text) :
    parse ("/*" ++ t ++ "*/" ++ rest) = .raw ("/*" ++ t ++ "*/") :: parse rest := by
  have hcut : cut? "*/" (t ++ ("*/" ++ rest)) = some (t, rest) :=
    cut?_of_lacks h (apart_of_head (by decide)) rest
  have hshape : ("/*" ++ t ++ "*/" ++ rest : Text) = '/' :: '*' :: (t ++ ("*/" ++ rest)) := by simp
  have hafter : after? "/*" ('/' :: '*' :: (t ++ ("*/" ++ rest))) = some (t ++ ("*/" ++ rest)) :=
    after?_eq_some.2 rfl
  have hlength : ('*' :: (t ++ ("*/" ++ rest))).length + 1 - rest.length
      = ("/*" ++ t ++ "*/" : Text).length := by
    simp
    omega
  rw [hshape, parse_of_comment (by decide) hafter hcut, hlength, ← hshape, List.take_left]

/-- A text that begins with a comment that does not end. -/
theorem parse_of_open_comment (hc : (isAsciiBlank c || c == '\x7d') = false)
    (hafter : after? "/*" (c :: t) = some body) (hcut : cut? "*/" body = none) :
    parse (c :: t) = [.raw (c :: t)] := by
  rw [parse, if_neg (by simp [hc])]
  split
  · rename_i h
    cases hafter.symm.trans h
    split
    all_goals
      rename_i h
      cases hcut.symm.trans h
    rfl
  · rename_i h
    cases hafter.symm.trans h

/-- A text that begins with a statement. -/
theorem parse_statement (hc : (isAsciiBlank c || c == '\x7d') = false)
    (hcomment : after? "/*" (c :: t) = none)
    (hprelude : preludeEnd? none 0 (c :: t) = some (prelude, .statement, rest)) :
    parse (c :: t) = .raw (trim prelude ++ [';']) :: parse rest := by
  rw [parse, if_neg (by simp [hc])]
  split
  · rename_i h
    cases hcomment.symm.trans h
  · split
    all_goals
      rename_i h
      cases hprelude.symm.trans h
    rfl

/-- A text whose prelude does not end. -/
theorem parse_of_no_prelude (hc : (isAsciiBlank c || c == '\x7d') = false)
    (hcomment : after? "/*" (c :: t) = none) (hprelude : preludeEnd? none 0 (c :: t) = none) :
    parse (c :: t) = if (trim (c :: t)).isEmpty then [] else [.raw (trim (c :: t))] := by
  rw [parse, if_neg (by simp [hc])]
  split
  · rename_i h
    cases hcomment.symm.trans h
  · split
    all_goals
      rename_i h
      cases hprelude.symm.trans h
    split
    · rename_i htrim
      rw [htrim]
      rfl
    · rename_i hne
      rw [if_neg (by simpa using hne)]

/-- A text whose first block does not end. -/
theorem parse_of_open_block (hc : (isAsciiBlank c || c == '\x7d') = false)
    (hcomment : after? "/*" (c :: t) = none)
    (hprelude : preludeEnd? none 0 (c :: t) = some (prelude, .block, body))
    (hbody : blockEnd? .plain 0 body = none) : parse (c :: t) = [.raw (trim (c :: t))] := by
  rw [parse, if_neg (by simp [hc])]
  split
  · rename_i h
    cases hcomment.symm.trans h
  · split
    all_goals
      rename_i h
      cases hprelude.symm.trans h
    split
    all_goals
      rename_i h
      cases hbody.symm.trans h
    rfl

/-- A text that begins with a block that holds no rules. -/
theorem parse_block (hc : (isAsciiBlank c || c == '\x7d') = false)
    (hcomment : after? "/*" (c :: t) = none)
    (hprelude : preludeEnd? none 0 (c :: t) = some (prelude, .block, body))
    (hbody : blockEnd? .plain 0 body = some (inner, rest)) (hname : trim prelude = '@' :: name)
    (hgroup : groupNames.contains (atRuleName name) = false) :
    parse (c :: t) = .raw (trim (prelude ++ '\x7b' :: inner ++ ['\x7d'])) :: parse rest := by
  rw [parse, if_neg (by simp [hc])]
  split
  · rename_i h
    cases hcomment.symm.trans h
  · split
    all_goals
      rename_i h
      cases hprelude.symm.trans h
    split
    all_goals
      rename_i h
      cases hbody.symm.trans h
    rw [hname]
    exact if_neg (Bool.eq_false_iff.1 hgroup)

/-- A text that begins with a rule. -/
theorem parse_rule (hc : (isAsciiBlank c || c == '\x7d') = false)
    (hcomment : after? "/*" (c :: t) = none)
    (hprelude : preludeEnd? none 0 (c :: t) = some (prelude, .block, body))
    (hbody : blockEnd? .plain 0 body = some (inner, rest)) (hname : (trim prelude).head? ≠ some '@') :
    parse (c :: t) = .rule ⟨splitSelectors (trim prelude), oneLine inner⟩ :: parse rest := by
  rw [parse, if_neg (by simp [hc])]
  split
  · rename_i h
    cases hcomment.symm.trans h
  · split
    all_goals
      rename_i h
      cases hprelude.symm.trans h
    split
    all_goals
      rename_i h
      cases hbody.symm.trans h
    split
    · simp_all
    · rfl

/-- A text that begins with rules under a condition. -/
theorem parse_group (hc : (isAsciiBlank c || c == '\x7d') = false)
    (hcomment : after? "/*" (c :: t) = none)
    (hprelude : preludeEnd? none 0 (c :: t) = some (prelude, .block, body))
    (hbody : blockEnd? .plain 0 body = some (inner, rest)) (hname : trim prelude = '@' :: name)
    (hgroup : groupNames.contains (atRuleName name) = true) :
    parse (c :: t) = .group (trim prelude) (parse inner) :: parse rest := by
  rw [parse, if_neg (by simp [hc])]
  split
  · rename_i h
    cases hcomment.symm.trans h
  · split
    all_goals
      rename_i h
      cases hprelude.symm.trans h
    split
    all_goals
      rename_i h
      cases hbody.symm.trans h
    rw [hname]
    exact if_pos hgroup

end Sheet

end WidgetCompiler.Style
