import WidgetCompiler.Php.Writer
import WidgetCompiler.Proofs.Php.Literals
import WidgetCompiler.Proofs.Text.Pieces
import WidgetCompiler.Proofs.Text.Seam
import WidgetCompiler.Validation.Quotes

/-!
# Sources with closed literals

The lexer of the check begins each line anew, so the state in which a text is left depends on where
its lines end.  `Closed state s` says that no line of `s` ends within a literal when the first one
begins in `state`.  It is built from behind: what stands before a closed text leads to it in a state
from which it is closed.

Pieces of code that stand on one line and lead from code to code (`Crosses`) can be put before any
text that is closed from code, and one behind the other.
-/

namespace WidgetCompiler.Validation

open Text

/-- Read from a state on, no line of the text ends within a literal, and all of it can be read. -/
def Closed (state : LexState) (s : Text) : Prop :=
  ∀ number, quoteIssues state number (splitOn (· == '\n') s) = some []

section

variable {state state' : LexState} {number : Nat} {line s t : Text} {ls ls' : List Text}

/-- Nothing is found if the first line leads to its end outside literals, and nothing is found in
the others. -/
theorem quoteIssues_cons_eq_nil : quoteIssues state number (line :: ls) = some [] ↔
    ∃ reached, lexLine state line = some reached ∧ reached.openQuote? = none
      ∧ quoteIssues reached.nextLine (number + 1) ls = some [] := by
  rw [quoteIssues]
  cases lexLine state line with
  | none => simp
  | some reached =>
    cases hquote : reached.openQuote? with
    | none => simp [hquote]
    | some q => simp [hquote]

theorem openQuote?_nextLine (state : LexState) : state.nextLine.openQuote? = none := by
  cases state <;> rfl

/-- Where nothing is found, the number of the first line does not matter. -/
theorem quoteIssues_eq_nil_congr (number' : Nat) (h : quoteIssues state number ls = some []) :
    quoteIssues state number' ls = some [] := by
  induction ls generalizing state number number' with
  | nil => rfl
  | cons line ls ih =>
    rw [quoteIssues_cons_eq_nil] at h ⊢
    obtain ⟨reached, hline, hquote, hrest⟩ := h
    exact ⟨reached, hline, hquote, ih (number' + 1) hrest⟩

/-- An empty line at the end makes no difference. -/
theorem quoteIssues_concat_nil (hquote : state.openQuote? = none) :
    quoteIssues state number (ls ++ [[]]) = some [] ↔ quoteIssues state number ls = some [] := by
  induction ls generalizing state number with
  | nil => exact iff_of_true (quoteIssues_cons_eq_nil.2 ⟨state, by rw [lexLine], hquote, rfl⟩) rfl
  | cons line ls ih =>
    rw [List.cons_append, quoteIssues_cons_eq_nil, quoteIssues_cons_eq_nil]
    simp only [ih (openQuote?_nextLine _)]

/-- What does not follow without a carriage return at the end does not follow with one. -/
theorem append_return_ne {s : Text} (mark : Text) (hmark : '\r' ∉ mark) (h : ∀ r, s ≠ mark ++ r) (r : Text) :
    s ++ ['\r'] ≠ mark ++ r := by
  intro heq
  rcases List.append_eq_append_iff.1 heq with ⟨a, rfl, ha⟩ | ⟨b, rfl, -⟩
  · cases a with
    | nil => exact h [] (by simp)
    | cons c a =>
      obtain rfl : '\r' = c := (List.cons.inj ha).1
      exact hmark (by simp)
  · exact h b rfl

/-- A carriage return at the end of a line makes no difference. -/
theorem lexLine_concat_return {state : LexState} (hstate : state ≠ .quoted '\r') (line : Text) :
    lexLine state (line ++ ['\r']) = lexLine state line := by
  have hbehind {c d : Char} {s : Text} (mark : Text) (hmark : '\r' ∉ mark)
      (h : ∀ r, c = d → ¬ s = mark ++ r) (r : Text) (hc : c = d) : ¬ s ++ ['\r'] = mark ++ r :=
    append_return_ne mark hmark (fun r => h r hc) r
  fun_induction lexLine state line with
  | case1 state =>
    cases state with
    | quoted q =>
      have hq : ¬ '\r' = q := fun h => hstate (h ▸ rfl)
      rw [List.nil_append, lexLine.eq_def]
      simp only [if_neg hq]
      rfl
    | _ => rfl
  | case3 c s hclose ih =>
    rw [List.cons_append, lexLine]
    · exact ih hstate
    · exact hbehind ['>'] (by decide) hclose
  | case6 c s hopen hecho hascii ih =>
    rw [List.cons_append, lexLine, if_pos hascii]
    · exact ih hstate
    · exact hbehind ['?', 'p', 'h', 'p'] (by decide) hopen
    · exact hbehind ['?', '='] (by decide) hecho
  | case7 c s hopen hecho hascii =>
    rw [List.cons_append, lexLine, if_neg hascii]
    · exact hbehind ['?', 'p', 'h', 'p'] (by decide) hopen
    · exact hbehind ['?', '='] (by decide) hecho
  | case9 c s hend hascii ih =>
    rw [List.cons_append, lexLine, if_pos hascii]
    · exact ih hstate
    · exact hbehind ['/'] (by decide) hend
  | case10 c s hend hascii =>
    rw [List.cons_append, lexLine, if_neg hascii]
    · exact hbehind ['/'] (by decide) hend
  | case11 q => simp [lexLine, isAscii]
  | case14 c s q hescape hascii ih =>
    rw [List.cons_append, lexLine.eq_def]
    simp only [if_neg hescape, if_pos hascii]
    refine ih ?_
    split
    · exact LexState.noConfusion
    · exact hstate
  | case15 c s q hescape hascii =>
    rw [List.cons_append, lexLine.eq_def]
    simp only [if_neg hescape, if_neg hascii]
  | case20 s hattribute ih =>
    rw [List.cons_append, lexLine]
    · exact ih LexState.noConfusion
    · exact append_return_ne ['['] (by decide) hattribute
  | case23 c s hclose hblock hline hattribute hremark hsingle hdouble hascii ih =>
    rw [List.cons_append, lexLine, if_pos hascii]
    · exact ih hstate
    · exact hremark
    · exact hsingle
    · exact hdouble
    · exact hbehind ['>'] (by decide) hclose
    · exact hbehind ['*'] (by decide) hblock
    · exact hbehind ['/'] (by decide) hline
    · exact fun r hc _ => hremark hc
  | case24 c s hclose hblock hline hattribute hremark hsingle hdouble hascii =>
    rw [List.cons_append, lexLine, if_neg hascii]
    · exact hremark
    · exact hsingle
    · exact hdouble
    · exact hbehind ['>'] (by decide) hclose
    · exact hbehind ['*'] (by decide) hblock
    · exact hbehind ['/'] (by decide) hline
    · exact fun r hc _ => hremark hc
  | _ => simp_all [lexLine]

theorem lexLine_dropReturn (hquote : state.openQuote? = none) (line : Text) :
    lexLine state (dropReturn line) = lexLine state line := by
  have hstate : state ≠ .quoted '\r' := by
    rintro rfl
    simp [LexState.openQuote?] at hquote
  rw [dropReturn]
  split
  · next hlast =>
    obtain ⟨front, rfl⟩ : ∃ front, line = front ++ ['\r'] :=
      ⟨line.dropLast, (List.dropLast_append_getLast? _ hlast).symm⟩
    rw [List.dropLast_concat, lexLine_concat_return hstate]
  · rfl

theorem quoteIssues_map_dropReturn (hquote : state.openQuote? = none) :
    quoteIssues state number (ls.map dropReturn ++ ls') = some []
      ↔ quoteIssues state number (ls ++ ls') = some [] := by
  induction ls generalizing state number with
  | nil => rfl
  | cons line ls ih =>
    rw [List.map_cons, List.cons_append, List.cons_append, quoteIssues_cons_eq_nil,
      quoteIssues_cons_eq_nil, lexLine_dropReturn hquote]
    simp only [ih (openQuote?_nextLine _)]

/-- The check finds nothing if and only if the text is closed from its beginning on. -/
theorem checkQuotes?_eq_nil : checkQuotes? (Source.ofText s) = some [] ↔ Closed .markup s := by
  have hlines : checkQuotes? (Source.ofText s) = some []
      ↔ quoteIssues .markup 1 (splitOn (· == '\n') s) = some [] := by
    rw [checkQuotes?, Source.ofText, lines]
    obtain ⟨init, last, hpieces⟩ :=
      (List.eq_nil_or_concat (splitOn (· == '\n') s)).resolve_left (splitOn_ne_nil _ s)
    rw [hpieces, List.concat_eq_append]
    cases last with
    | nil =>
      have := @quoteIssues_map_dropReturn .markup 1 init [] rfl
      simpa [@quoteIssues_concat_nil .markup 1 init rfl] using this
    | cons c last => simpa using @quoteIssues_map_dropReturn .markup 1 init [c :: last] rfl
  exact hlines.trans ⟨fun h number => quoteIssues_eq_nil_congr number h, fun h => h 1⟩

/-- A piece of a line that leads from one state to another, if what follows it on the line begins
as the text behind it does. -/
theorem closed_append (ht : '\n' ∉ t)
    (hlex : ∀ rest : Text, (∀ c ∈ rest.head?, c ∈ s.head?) →
      lexLine state (t ++ rest) = lexLine state' rest) :
    Closed state (t ++ s) ↔ Closed state' s := by
  have hpick : ∀ c ∈ t, (c == '\n') = false := fun c hc => beq_eq_false_iff_ne.2 fun e => ht (e ▸ hc)
  obtain ⟨piece, pieces, hs, hts⟩ := splitOn_append hpick s
  refine forall_congr' fun number => ?_
  rw [hs, hts, quoteIssues_cons_eq_nil, quoteIssues_cons_eq_nil, hlex piece (head?_splitOn hs)]

/-- The end of a line. -/
theorem closed_newline (hquote : state.openQuote? = none) :
    Closed state ('\n' :: s) ↔ Closed state.nextLine s := by
  have hsplit (number : Nat) : quoteIssues state number (splitOn (· == '\n') ('\n' :: s)) = some []
      ↔ quoteIssues state.nextLine (number + 1) (splitOn (· == '\n') s) = some [] := by
    rw [splitOn_cons_of_pos rfl, quoteIssues_cons_eq_nil, lexLine]
    simp [hquote]
  refine ⟨fun h number => quoteIssues_eq_nil_congr number ((hsplit 0).1 (h 0)), fun h number => ?_⟩
  exact (hsplit number).2 (h (number + 1))

/-- A line does not end within a literal. -/
theorem not_closed_newline {q : Char} : ¬ Closed (.quoted q) ('\n' :: s) := by
  intro h
  have hline := h 0
  rw [splitOn_cons_of_pos rfl, quoteIssues_cons_eq_nil, lexLine] at hline
  obtain ⟨reached, hreached, hquote, -⟩ := hline
  obtain rfl := Option.some.inj hreached
  exact absurd hquote (by simp [LexState.openQuote?])

namespace Closed

theorem nil : Closed .code [] := fun _ => rfl

theorem newline (hquote : state.openQuote? = none) (h : Closed state.nextLine s) :
    Closed state ('\n' :: s) :=
  (closed_newline hquote).2 h

end Closed

/-! ## Pieces of code -/

/-- The text stands on one line and leads from code to code. -/
structure Crosses (t : Text) : Prop where
  line : '\n' ∉ t
  lex : ∀ rest, lexLine .code (t ++ rest) = lexLine .code rest

theorem Crosses.closed_append (ht : Crosses t) : Closed .code (t ++ s) ↔ Closed .code s :=
  Validation.closed_append ht.line fun rest _ => ht.lex rest

theorem Crosses.closed (ht : Crosses t) (h : Closed .code s) : Closed .code (t ++ s) :=
  ht.closed_append.2 h

namespace Crosses

theorem nil : Crosses [] := ⟨by simp, fun _ => rfl⟩

theorem append (hs : Crosses s) (ht : Crosses t) : Crosses (s ++ t) where
  line h := (List.mem_append.1 h).elim hs.line ht.line
  lex rest := by rw [List.append_assoc, hs.lex, ht.lex]

end Crosses

/-- The characters at which the lexer may leave code. -/
def lexMarks : Text := "?/#'\"\n"

/-- Whether all characters of a text are in ASCII and none has a meaning for the lexer in code. -/
def isPlainInCode (t : Text) : Bool := t.all fun c => isAscii c && decide (c ∉ lexMarks)

theorem lexLine_code_cons {c : Char} (hascii : isAscii c = true) (hc : c ∉ lexMarks) (rest : Text) :
    lexLine .code (c :: rest) = lexLine .code rest := by
  have hne : ∀ d ∈ lexMarks, c ≠ d := fun d hd h => hc (h ▸ hd)
  rw [lexLine]
  · rw [if_pos hascii]
  all_goals
    intro h
    first
      | exact absurd h (hne _ (by decide))
      | (intro h'; exact absurd h' (hne _ (by decide)))

theorem crosses_of_isPlainInCode (h : isPlainInCode t = true) : Crosses t := by
  induction t with
  | nil => exact Crosses.nil
  | cons c t ih =>
    obtain ⟨⟨hascii, hc⟩, ht⟩ : (isAscii c = true ∧ c ∉ lexMarks) ∧ isPlainInCode t = true := by
      simpa [isPlainInCode] using h
    have hne : c ≠ '\n' := fun e => hc (e ▸ by decide)
    refine ⟨fun hm => ?_, fun rest => ?_⟩
    · rcases List.mem_cons.1 hm with e | hm
      · exact hne e.symm
      · exact (ih ht).line hm
    · rw [List.cons_append, lexLine_code_cons hascii hc, (ih ht).lex]

/-- Whether a text leads from code, or from within a literal, to code, whatever follows it.  It is
strict: no comments, no escapes, and a `?` only before a space. -/
def leadsToCode : Option Char → Text → Bool
  | none, [] => true
  | some _, [] => false
  | none, '?' :: ' ' :: t => leadsToCode none t
  | none, c :: t =>
    if c = '"' ∨ c = '\'' then leadsToCode (some c) t
    else isAscii c && decide (c ∉ lexMarks) && leadsToCode none t
  | some q, c :: t =>
    isAscii c && decide (c ∉ ("\\\n" : Text)) && leadsToCode (if c = q then none else some q) t

/-- The state of the lexer in code, or in a literal. -/
def codeState : Option Char → LexState
  | none => .code
  | some q => .quoted q

theorem of_leadsToCode {q : Option Char} (h : leadsToCode q t = true) :
    '\n' ∉ t ∧ ∀ rest, lexLine (codeState q) (t ++ rest) = lexLine .code rest := by
  fun_induction leadsToCode q t with
  | case1 => exact ⟨by simp, fun _ => rfl⟩
  | case2 => exact absurd h (by decide)
  | case3 t ih =>
    obtain ⟨hline, hlex⟩ := ih h
    refine ⟨by simpa using hline, fun rest => ?_⟩
    exact hlex rest
  | case4 c t _ hquote ih =>
    obtain ⟨hline, hlex⟩ := ih h
    rcases hquote with rfl | rfl
    · refine ⟨by simpa using hline, fun rest => ?_⟩
      rw [List.cons_append, codeState, lexLine]
      exact hlex rest
    · refine ⟨by simpa using hline, fun rest => ?_⟩
      rw [List.cons_append, codeState, lexLine]
      exact hlex rest
  | case5 c t _ _ ih =>
    obtain ⟨⟨hascii, hc⟩, ht⟩ : (isAscii c = true ∧ c ∉ lexMarks) ∧ leadsToCode none t = true := by
      simpa using h
    obtain ⟨hline, hlex⟩ := ih ht
    refine ⟨fun hm => ?_, fun rest => ?_⟩
    · rcases List.mem_cons.1 hm with rfl | hm
      · exact hc (by decide)
      · exact hline hm
    · rw [List.cons_append, codeState, lexLine_code_cons hascii hc]
      exact hlex rest
  | case6 q c t ih =>
    obtain ⟨⟨hascii, hc⟩, ht⟩ : (isAscii c = true ∧ c ∉ ("\\\n" : Text))
        ∧ leadsToCode (if c = q then none else some q) t = true := by
      simpa only [Bool.and_eq_true, decide_eq_true_eq] using h
    obtain ⟨hline, hlex⟩ := ih ht
    refine ⟨fun hm => ?_, fun rest => ?_⟩
    · rcases List.mem_cons.1 hm with rfl | hm
      · exact hc (by decide)
      · exact hline hm
    · have hescape : c ≠ '\\' := fun e => hc (e ▸ by decide)
      rw [List.cons_append, codeState, lexLine.eq_def]
      simp only [if_neg hescape, if_pos hascii]
      rw [← hlex rest]
      split <;> rfl

theorem crosses_of_leadsToCode (h : leadsToCode none t = true) : Crosses t :=
  ⟨(of_leadsToCode h).1, (of_leadsToCode h).2⟩

/-! ## Literals -/

/-- The body of a literal in single quotes leads to what follows it, without a line break. -/
theorem lexLine_escapeSingle (ht : ∀ c ∈ t, isAscii c = true) (rest : Text) :
    lexLine (.quoted '\'') (Php.escapeSingle t ++ rest) = lexLine (.quoted '\'') rest := by
  induction t with
  | nil => rfl
  | cons c t ih =>
    have hrest := ih fun d hd => ht d (List.mem_cons_of_mem c hd)
    rw [Php.escapeSingle, List.flatMap_cons, List.append_assoc]
    change lexLine _ (Php.escapeSingleChar c ++ (Php.escapeSingle t ++ rest)) = _
    unfold Php.escapeSingleChar
    split
    · exact hrest
    · split
      · exact hrest
      · next h h' =>
        rw [List.singleton_append, lexLine.eq_def]
        simp only [if_neg h, if_neg h', if_pos (ht c List.mem_cons_self), hrest]

theorem lexLine_endQuote (q : Char) (hq : q = '\'' ∨ q = '"') (rest : Text) :
    lexLine (.quoted q) (q :: rest) = lexLine .code rest := by
  rcases hq with rfl | rfl
  · rw [lexLine.eq_def]
    rfl
  · rw [lexLine.eq_def]
    rfl

theorem not_mem_escapeSingle (h : '\n' ∉ t) : '\n' ∉ Php.escapeSingle t := fun hm =>
  (Php.mem_escapeSingle hm).elim h (by decide)

theorem crosses_singleQuoted (ht : ∀ c ∈ t, isAscii c = true) (hline : '\n' ∉ t) :
    Crosses (Php.singleQuoted t) where
  line := by simpa [Php.singleQuoted] using not_mem_escapeSingle hline
  lex rest := by
    have hbody := lexLine_escapeSingle ht ('\'' :: rest)
    rw [lexLine_endQuote _ (.inl rfl)] at hbody
    rw [Php.singleQuoted, List.cons_append, List.append_assoc, lexLine]
    exact hbody

/-- A character that cannot be read is in no closed text. -/
theorem not_closed_cons {c : Char} (hline : c ≠ '\n')
    (hlex : ∀ rest, lexLine state (c :: rest) = none) : ¬ Closed state (c :: s) := by
  intro h
  obtain ⟨piece, pieces, -, hpieces⟩ := splitOn_append (p := (· == '\n')) (t := [c])
    (fun d hd => beq_eq_false_iff_ne.2 (List.mem_singleton.1 hd ▸ hline)) s
  have hfirst := h 0
  rw [← List.singleton_append, hpieces, quoteIssues_cons_eq_nil] at hfirst
  obtain ⟨reached, hreached, -⟩ := hfirst
  rw [List.singleton_append, hlex] at hreached
  simp at hreached

/-- A character that stands as it is within a literal has to be in ASCII, and must not end the
line. -/
theorem closed_quoted_cons {q c : Char} (hescape : c ≠ '\\') (hquote : c ≠ q) :
    Closed (.quoted q) (c :: s) ↔ (isAscii c = true ∧ c ≠ '\n') ∧ Closed (.quoted q) s := by
  by_cases hline : c = '\n'
  · subst hline
    exact iff_of_false not_closed_newline fun h => h.1.2 rfl
  have hstep (rest : Text) :
      lexLine (.quoted q) (c :: rest) = if isAscii c then lexLine (.quoted q) rest else none := by
    rw [lexLine.eq_def]
    simp only [if_neg hescape, if_neg hquote]
  by_cases hascii : isAscii c = true
  · rw [and_iff_right ⟨hascii, hline⟩]
    refine closed_append (t := [c]) (by simpa using Ne.symm hline) fun rest _ => ?_
    rw [List.singleton_append, hstep, if_pos hascii]
  · refine iff_of_false (not_closed_cons hline fun rest => ?_) fun h => hascii h.1.1
    rw [hstep, if_neg hascii]

/-- An escaped character does not end a literal. -/
theorem closed_quoted_escaped {q d : Char} (hascii : isAscii d = true) (hline : d ≠ '\n') :
    Closed (.quoted q) ('\\' :: d :: s) ↔ Closed (.quoted q) s := by
  refine closed_append (t := ['\\', d]) (by simpa using Ne.symm hline) fun rest _ => ?_
  rw [List.cons_append, List.singleton_append, lexLine.eq_def]
  simp only [if_true, if_pos hascii]

/-- The body of a literal, written character by character. -/
theorem closed_quoted_flatMap {q : Char} {f : Char → Text} {allowed : Char → Prop}
    (hf : ∀ c s, Closed (.quoted q) (f c ++ s) ↔ allowed c ∧ Closed (.quoted q) s) :
    Closed (.quoted q) (t.flatMap f ++ s) ↔ (∀ c ∈ t, allowed c) ∧ Closed (.quoted q) s := by
  induction t with
  | nil => simp
  | cons c t ih => rw [List.flatMap_cons, List.append_assoc, hf, ih, List.forall_mem_cons, and_assoc]

theorem closed_endQuote {q : Char} (hq : q = '\'' ∨ q = '"') :
    Closed (.quoted q) (q :: s) ↔ Closed .code s := by
  refine closed_append (t := [q]) ?_ fun rest _ => lexLine_endQuote q hq rest
  rcases hq with rfl | rfl <;> decide

/-- A literal in single quotes has to be in ASCII.  A line break in it is written as it is, and leaves
it open at the end of a line. -/
theorem closed_singleQuoted :
    Closed .code (Php.singleQuoted t ++ s)
      ↔ (∀ c ∈ t, isAscii c = true ∧ c ≠ '\n') ∧ Closed .code s := by
  have hstep (c : Char) (s : Text) : Closed (.quoted '\'') (Php.escapeSingleChar c ++ s)
      ↔ (isAscii c = true ∧ c ≠ '\n') ∧ Closed (.quoted '\'') s := by
    unfold Php.escapeSingleChar
    split_ifs with hescape hquote
    · subst hescape
      exact (closed_quoted_escaped (by decide) (by decide)).trans (and_iff_right (by decide)).symm
    · subst hquote
      exact (closed_quoted_escaped (by decide) (by decide)).trans (and_iff_right (by decide)).symm
    · exact closed_quoted_cons hescape hquote
  have hopen : Closed .code (Php.singleQuoted t ++ s)
      ↔ Closed (.quoted '\'') (Php.escapeSingle t ++ '\'' :: s) := by
    have := @closed_append .code (.quoted '\'') (Php.escapeSingle t ++ '\'' :: s) ['\''] (by decide)
      fun rest _ => by rw [List.singleton_append, lexLine]
    simpa [Php.singleQuoted] using this
  rw [hopen, Php.escapeSingle, closed_quoted_flatMap hstep, closed_endQuote (.inl rfl)]

/-- A literal in double quotes has to be in ASCII. -/
theorem closed_doubleQuoted :
    Closed .code (Php.doubleQuoted t ++ s) ↔ (∀ c ∈ t, isAscii c = true) ∧ Closed .code s := by
  have hstep (c : Char) (s : Text) : Closed (.quoted '"') (Php.escapeDoubleChar c ++ s)
      ↔ isAscii c = true ∧ Closed (.quoted '"') s := by
    have hescaped {c d : Char} (hc : isAscii c = true) (hd : isAscii d = true ∧ d ≠ '\n') :
        Closed (.quoted '"') (['\\', d] ++ s) ↔ isAscii c = true ∧ Closed (.quoted '"') s :=
      (closed_quoted_escaped hd.1 hd.2).trans (and_iff_right hc).symm
    unfold Php.escapeDoubleChar
    split_ifs with hescape hquote hdollar hline htab hreturn
    · exact hescaped (hescape ▸ by decide) (by decide)
    · exact hescaped (hquote ▸ by decide) (by decide)
    · exact hescaped (hdollar ▸ by decide) (by decide)
    · exact hescaped (hline ▸ by decide) (by decide)
    · exact hescaped (htab ▸ by decide) (by decide)
    · exact (and_iff_right (hreturn ▸ by decide)).symm
    · have := @closed_quoted_cons s _ _ hescape hquote
      rwa [and_iff_left hline] at this
  have hopen : Closed .code (Php.doubleQuoted t ++ s)
      ↔ Closed (.quoted '"') (Php.escapeDouble t ++ '"' :: s) := by
    have := @closed_append .code (.quoted '"') (Php.escapeDouble t ++ '"' :: s) ['"'] (by decide)
      fun rest _ => by rw [List.singleton_append, lexLine]
    simpa [Php.doubleQuoted] using this
  rw [hopen, Php.escapeDouble, closed_quoted_flatMap hstep, closed_endQuote (.inr rfl)]

/-- The body of a literal in double quotes leads to what follows it. -/
theorem lexLine_escapeDouble (ht : ∀ c ∈ t, isAscii c = true) (rest : Text) :
    lexLine (.quoted '"') (Php.escapeDouble t ++ rest) = lexLine (.quoted '"') rest := by
  induction t with
  | nil => rfl
  | cons c t ih =>
    have hrest := ih fun d hd => ht d (List.mem_cons_of_mem c hd)
    rw [Php.escapeDouble, List.flatMap_cons, List.append_assoc]
    change lexLine _ (Php.escapeDoubleChar c ++ (Php.escapeDouble t ++ rest)) = _
    unfold Php.escapeDoubleChar
    split_ifs with hescape hquote
    all_goals try exact hrest
    rw [List.singleton_append, lexLine.eq_def]
    simp only [if_neg hescape, if_neg hquote, if_pos (ht c List.mem_cons_self), hrest]

/-- A literal in double quotes stands on one line, whatever the text. -/
theorem crosses_doubleQuoted (ht : ∀ c ∈ t, isAscii c = true) : Crosses (Php.doubleQuoted t) where
  line := by
    have hbody : '\n' ∉ Php.escapeDouble t := by
      intro hm
      obtain ⟨c, -, hc⟩ := List.mem_flatMap.1 hm
      unfold Php.escapeDoubleChar at hc
      split_ifs at hc with _ _ _ hnewline
      all_goals simp at hc
      exact hnewline hc.symm
    simpa [Php.doubleQuoted] using hbody
  lex rest := by
    have hbody := lexLine_escapeDouble ht ('"' :: rest)
    rw [lexLine_endQuote _ (.inr rfl)] at hbody
    rw [Php.doubleQuoted, List.cons_append, List.append_assoc, lexLine]
    exact hbody

/-- So does a literal that chooses its quotes. -/
theorem crosses_literal (ht : ∀ c ∈ t, isAscii c = true) : Crosses (Php.literal t) := by
  rw [Php.literal]
  split
  · exact crosses_doubleQuoted ht
  · next hbreak =>
    refine crosses_singleQuoted ht fun hm => hbreak ?_
    exact List.any_eq_true.2 ⟨'\n', hm, rfl⟩

/-! ## Markup and comments -/

/-- Markup in ASCII without instructions, up to where code begins, or to the end of what is asked
about. -/
theorem Closed.markup (ht : ∀ c ∈ t, isAscii c = true) (hlacks : Lacks "<?" t)
    (hs : ∀ c ∈ s.head?, c ≠ '?') (h : Closed .markup s) : Closed .markup (t ++ s) := by
  induction t with
  | nil => exact h
  | cons c t ih =>
    have hrest := ih (fun d hd => ht d (List.mem_cons_of_mem c hd))
      (hlacks.of_infix (List.suffix_cons c t).isInfix)
    by_cases hc : c = '\n'
    · subst hc
      exact Closed.newline rfl hrest
    · refine (closed_append (t := [c]) (by simpa using Ne.symm hc) fun rest hhead => ?_).2 hrest
      -- a `?` behind this character would make an instruction of it
      have hnext : c = '<' → ∀ r, rest ≠ '?' :: r := by
        rintro rfl r rfl
        have hquestion := hhead '?' rfl
        cases t with
        | nil => exact hs '?' hquestion rfl
        | cons d t =>
          obtain rfl : d = '?' := by simpa using hquestion
          exact hlacks ⟨[], t, rfl⟩
      rw [List.singleton_append, lexLine, if_pos (ht c List.mem_cons_self)]
      · exact fun r hc hr => hnext hc _ hr
      · exact fun r hc hr => hnext hc _ hr

/-- Whether a text can stand in a comment in code: it is in ASCII, does not end the comment, and does
not end in what could. -/
def isRemark : Text → Bool
  | [] => true
  | ['*'] => false
  | '*' :: c :: t => decide (c ≠ '/') && isRemark (c :: t)
  | c :: t => isAscii c && isRemark t

/-- A text without the end of a comment can stand in one, if no end is begun in it. -/
theorem isRemark_of_lacks (hascii : ∀ c ∈ t, isAscii c = true) (hlacks : Lacks "*/" t)
    (hlast : t.getLast? ≠ some '*') : isRemark t = true := by
  fun_induction isRemark t with
  | case1 => rfl
  | case2 => exact absurd rfl hlast
  | case3 c t ih =>
    have hc : c ≠ '/' := by
      rintro rfl
      exact hlacks ⟨[], t, rfl⟩
    rw [decide_eq_true hc, Bool.true_and]
    exact ih (fun d hd => hascii d (List.mem_cons_of_mem _ hd))
      (hlacks.of_infix (List.suffix_cons _ _).isInfix) (by simpa using hlast)
  | case4 c t _ _ ih =>
    rw [hascii c List.mem_cons_self, Bool.true_and]
    refine ih (fun d hd => hascii d (List.mem_cons_of_mem _ hd))
      (hlacks.of_infix (List.suffix_cons _ _).isInfix) fun ht => hlast ?_
    rw [List.getLast?_cons, ht]
    rfl

/-- A comment goes on in any number of lines. -/
theorem closed_remark (ht : isRemark t = true) :
    Closed .blockComment (t ++ s) ↔ Closed .blockComment s := by
  fun_induction isRemark t with
  | case1 => rfl
  | case2 => exact absurd ht (by decide)
  | case3 c t ih =>
    obtain ⟨hc, ht⟩ : c ≠ '/' ∧ isRemark (c :: t) = true := by simpa using ht
    refine (closed_append (t := ['*']) (by decide) fun rest hrest => ?_).trans (ih ht)
    rw [List.singleton_append, lexLine]
    · rfl
    · rintro r - rfl
      exact hc (by simpa using hrest '/' rfl)
  | case4 c t hlast hstar ih =>
    obtain ⟨hascii, ht⟩ : isAscii c = true ∧ isRemark t = true := by simpa using ht
    by_cases hc : c = '\n'
    · subst hc
      exact (closed_newline rfl).trans (ih ht)
    · refine (closed_append (t := [c]) (by simpa using Ne.symm hc) fun rest _ => ?_).trans (ih ht)
      rw [List.singleton_append, lexLine]
      · rw [if_pos hascii]
      · rintro r rfl -
        cases t with
        | nil => exact hlast rfl rfl
        | cons d t => exact hstar d t rfl rfl

theorem closed_beginComment : Closed .code (("/*" : Text) ++ s) ↔ Closed .blockComment s :=
  closed_append (by decide) fun _ _ => rfl

theorem closed_endComment : Closed .blockComment (("*/" : Text) ++ s) ↔ Closed .code s :=
  closed_append (by decide) fun _ _ => rfl

/-- A comment that ends with its line. -/
theorem closed_lineComment (hline : '\n' ∉ t) (ht : '?' ∉ t) :
    Closed .code (("//" : Text) ++ t ++ '\n' :: s) ↔ Closed .code s := by
  have hlex (rest : Text) : lexLine .lineComment (t ++ rest) = lexLine .lineComment rest := by
    induction t with
    | nil => rfl
    | cons c t ih =>
      obtain ⟨hc, ht⟩ : '?' ≠ c ∧ '?' ∉ t := by simpa using ht
      rw [List.cons_append, lexLine]
      · exact ih (fun hm => hline (List.mem_cons_of_mem _ hm)) ht
      · rintro r rfl -
        exact hc rfl
  have hbegin : Closed .code (("//" : Text) ++ t ++ '\n' :: s) ↔ Closed .lineComment ('\n' :: s) := by
    refine closed_append ?_ fun rest _ => ?_
    · simpa using hline
    · rw [List.append_assoc, ← hlex rest]
      rfl
  exact hbegin.trans (closed_newline rfl)

theorem Closed.lineComment (hline : '\n' ∉ t) (ht : '?' ∉ t) (h : Closed .code s) :
    Closed .code (("//" : Text) ++ t ++ '\n' :: s) :=
  (closed_lineComment hline ht).2 h

theorem closed_openTag : Closed .markup (Php.openTag ++ s) ↔ Closed .code s :=
  closed_append (by decide) fun _ _ => rfl

theorem Closed.openTag (h : Closed .code s) : Closed .markup (Php.openTag ++ s) :=
  closed_openTag.2 h

theorem Closed.closeTag (h : Closed .markup s) : Closed .code (Php.closeTag ++ s) :=
  (closed_append (by decide) fun _ _ => rfl).2 h

end

end WidgetCompiler.Validation
