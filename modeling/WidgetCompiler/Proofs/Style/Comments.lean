import WidgetCompiler.Proofs.Style.Conservation
import WidgetCompiler.Proofs.Style.Rereading
import WidgetCompiler.Proofs.Style.RoundTrip

/-!
# Comments in preludes

A comment between a selector and its block is part of the prelude, and the reader of preludes does not
know comments: it takes the quotes, parentheses, semicolons and braces in them for its own.  So a rule
with such a comment is read as one rule exactly if the reader comes out of the comment as it went in, in
plain text with no parenthesis open (`CommentedRule.IsUnnoticed`).  Then every rule of the sheet is read,
in order and with its declarations (`parse_commented`).  An apostrophe in a comment opens a quote, and the
rules behind it are lost (`parse_commented_apostrophe`).
-/

namespace WidgetCompiler.Style

open Text Sheet

variable {c : Char} {s t rest : Text}

/-! ## Rules with comments -/

/-- A rule that is written with a comment behind its selector. -/
structure CommentedRule where
  selector : Text
  comment : Text
  declarations : Text
  /-- The blanks between the rule and the next one. -/
  gap : Text

namespace CommentedRule

variable {r : CommentedRule} {rs : List CommentedRule}

/-- What stands before the block of the rule. -/
def prelude (r : CommentedRule) : Text := r.selector ++ " /*" ++ r.comment ++ "*/ "

/-- The rule as it is written. -/
def text (r : CommentedRule) : Text :=
  r.prelude ++ '\x7b' :: (' ' :: r.declarations ++ [' ']) ++ '\x7d' :: r.gap

/-- A selector without marks on one line, a comment and declarations on one line each. -/
structure WellFormed (r : CommentedRule) : Prop where
  ne_nil : r.selector ≠ []
  selector : ∀ c ∈ r.selector, c ∉ ("\n\"'\x7b\x7d;,()@/" : Text)
  comment : Lacks "*/" r.comment
  line : '\n' ∉ r.comment
  declarations : IsDeclarations r.declarations
  gap : ∀ c ∈ r.gap, isAsciiBlank c = true

/-- The reader of preludes does not come to the comment, as there is nothing but blanks before it, or it
comes out of it as it went in: quotes and parentheses are closed in the comment, and no semicolon or brace
stands outside them. -/
def IsUnnoticed (r : CommentedRule) : Prop :=
  (∀ c ∈ r.selector, isAsciiBlank c = true) ∨ preludes.run (.plain 0) r.comment = some (.plain 0)

instance (r : CommentedRule) : Decidable r.IsUnnoticed := inferInstanceAs (Decidable (_ ∨ _))

/-- The nodes of the rule: a comment behind nothing but blanks is a node of its own. -/
def nodes (r : CommentedRule) : List Node :=
  if ∀ c ∈ r.selector, isAsciiBlank c = true then
    [.raw ("/*" ++ r.comment ++ "*/"), .rule ⟨[], r.declarations⟩]
  else [.rule ⟨splitSelectors r.prelude, r.declarations⟩]

/-- There is one rule for each that was written. -/
theorem rules_flatMap_nodes (rs : List CommentedRule) :
    (rules (rs.flatMap nodes)).map (·.declarations) = rs.map (·.declarations) := by
  induction rs with
  | nil => simp [rules]
  | cons r rs ih =>
    rw [List.flatMap_cons, List.map_cons, ← ih, nodes]
    split <;> simp [rules]

/-! ## The reader of preludes in a selector and in a comment -/

theorem run_of_not_mem (h : ∀ c ∈ t, c ∉ ("\"'();\x7b" : Text)) (n : Nat) :
    preludes.run (.plain n) t = some (.plain n) := by
  induction t with
  | nil => rfl
  | cons c t ih =>
    obtain ⟨hc, ht⟩ := List.forall_mem_cons.1 h
    have hstep : preludes.step (.plain n) c = some (.plain n) := by
      have hne : ¬ isQuote c = true ∧ c ≠ '(' ∧ c ≠ ')' ∧ c ≠ ';' ∧ c ≠ '\x7b' := by
        simpa [isQuote, and_assoc] using hc
      simp [preludes, PreludeMode.step, hne]
    rw [Scanner.run_cons, hstep]
    exact ih ht

theorem run_quoted (h : ∀ c ∈ t, c ≠ '\\' ∧ isQuote c = false) (q : Quote) (n : Nat) :
    preludes.run (.quoted q n) t = some (.quoted q n) := by
  induction t with
  | nil => rfl
  | cons c t ih =>
    obtain ⟨⟨hback, hquote⟩, ht⟩ := List.forall_mem_cons.1 h
    have hne : c ≠ q.1 := by
      rintro rfl
      exact Bool.false_ne_true (hquote.symm.trans q.2)
    have hstep : preludes.step (.quoted q n) c = some (.quoted q n) := by
      simp [preludes, PreludeMode.step, hback, hne]
    rw [Scanner.run_cons, hstep]
    exact ih ht

/-- The end of a comment closes no quote and no parenthesis. -/
theorem run_comment_end {m : PreludeMode} (h : preludes.run m "*/ " = some (.plain 0)) :
    m = .plain 0 := by
  cases m with
  | plain n =>
    rw [run_of_not_mem (by decide) n] at h
    exact Option.some.inj h
  | quoted q n =>
    rw [run_quoted (by decide) q n] at h
    cases h
  | escaped q n =>
    have hrest : preludes.run (.escaped q n) "*/ " = preludes.run (.quoted q n) "/ " := rfl
    rw [hrest, run_quoted (by decide) q n] at h
    cases h

/-- Behind a selector it depends on the comment whether the reader comes to the block in plain text. -/
theorem run_prelude_iff (h : ∀ c ∈ s, c ∉ ("\"'();\x7b" : Text)) (t : Text) :
    preludes.run (.plain 0) (s ++ " /*" ++ t ++ "*/ ") = some (.plain 0)
      ↔ preludes.run (.plain 0) t = some (.plain 0) := by
  have hbegin : preludes.run (.plain 0) (s ++ " /*") = some (.plain 0) :=
    (Scanner.run_append_of_run (run_of_not_mem h 0)).trans (run_of_not_mem (by decide) 0)
  rw [List.append_assoc, Scanner.run_append_of_run hbegin]
  constructor
  · intro hrun
    rw [Scanner.run_append] at hrun
    obtain ⟨m, hm, hend⟩ := Option.bind_eq_some_iff.1 hrun
    rw [hm, run_comment_end hend]
  · intro hrun
    rw [Scanner.run_append_of_run hrun]
    exact run_of_not_mem (by decide) 0

/-! ## The rule at the front -/

/-- Where a rule is read, the selectors of its prelude are read. -/
theorem exists_prelude_of_parse {r : Rule} {ns : List Node}
    (hstart : (isAsciiBlank c || c == '\x7d') = false) (hcomment : after? "/*" (c :: s) = none)
    (h : parse (c :: s) = .rule r :: ns) : ∃ prelude body,
      preludeEnd? none 0 (c :: s) = some (prelude, .block, body)
        ∧ r.selectors = splitSelectors prelude := by
  cases hprelude : preludeEnd? none 0 (c :: s) with
  | none =>
    rw [parse_of_no_prelude hstart hcomment hprelude] at h
    split at h <;> simp at h
  | some found =>
    obtain ⟨prelude, stop, body⟩ := found
    cases stop with
    | statement => simp [parse_statement hstart hcomment hprelude] at h
    | block =>
      refine ⟨prelude, body, rfl, ?_⟩
      cases hbody : blockEnd? .plain 0 body with
      | none => simp [parse_of_open_block hstart hcomment hprelude hbody] at h
      | some found =>
        obtain ⟨inner, rest⟩ := found
        by_cases hat : (trim prelude).head? = some '@'
        · obtain ⟨name, hname⟩ := List.head?_eq_some_iff.1 hat
          cases hgroup : groupNames.contains (atRuleName name) with
          | true => simp [parse_group hstart hcomment hprelude hbody hname hgroup] at h
          | false => simp [parse_block hstart hcomment hprelude hbody hname hgroup] at h
        · rw [parse_rule hstart hcomment hprelude hbody hat] at h
          obtain ⟨hrule, -⟩ := List.cons.inj h
          rw [← Node.rule.inj hrule, splitSelectors_trim]

/-- Two preludes of a text in front of braces are one if the same selectors are read from them. -/
theorem prelude_unique {prelude prelude' body body' : Text}
    (h : prelude ++ '\x7b' :: body = prelude' ++ '\x7b' :: body') (hink : ink prelude = ink prelude') :
    prelude = prelude' := by
  have hne (u : Text) : ink ('\x7b' :: u) ≠ [] := by
    rw [ink_cons]
    exact List.cons_ne_nil _ _
  rcases List.append_eq_append_iff.1 h with ⟨u, rfl, hu⟩ | ⟨u, rfl, hu⟩
  · cases u with
    | nil => simp
    | cons d u =>
      obtain rfl : '\x7b' = d := (List.cons.inj hu).1
      rw [ink_append] at hink
      exact absurd (List.self_eq_append_right.1 hink) (hne u)
  · cases u with
    | nil => simp
    | cons d u =>
      obtain rfl : '\x7b' = d := (List.cons.inj hu).1
      rw [ink_append] at hink
      exact absurd (List.self_eq_append_right.1 hink.symm) (hne u)

/-- A selector that is not blank, from its first character on that is not an ASCII blank. -/
theorem exists_start (h : ¬ ∀ c ∈ s, isAsciiBlank c = true) : ∃ gap c t, s = gap ++ c :: t
    ∧ (∀ d ∈ gap, isAsciiBlank d = true) ∧ isAsciiBlank c = false := by
  induction s with
  | nil => simp at h
  | cons c t ih =>
    cases hc : isAsciiBlank c with
    | false => exact ⟨[], c, t, rfl, by simp, hc⟩
    | true =>
      have ht : ¬ ∀ d ∈ t, isAsciiBlank d = true := fun ht => h (List.forall_mem_cons.2 ⟨hc, ht⟩)
      obtain ⟨gap, d, u, rfl, hgap, hd⟩ := ih ht
      exact ⟨c :: gap, d, u, rfl, List.forall_mem_cons.2 ⟨hc, hgap⟩, hd⟩

/-- A prelude with a comment does not begin with an `@`. -/
theorem head?_trim_prelude (h : '@' ∉ s) (t : Text) : (trim (s ++ " /*" ++ t)).head? ≠ some '@' := by
  obtain ⟨gap, -, htrim⟩ := exists_trim_append (s ++ " /*" ++ t)
  intro hhead
  have hstart : (trimStart (s ++ (" /*" ++ t))).head? = some '@' := by
    rw [← List.append_assoc, htrim, List.head?_append, hhead]
    rfl
  cases hblank : allBlank s with
  | true =>
    rw [trimStart_append_of_allBlank hblank] at hstart
    exact absurd (Option.some.inj hstart) (by decide)
  | false =>
    rw [trimStart_append_of_not_allBlank hblank, List.head?_append_of_ne_nil _ (trimStart_ne_nil hblank)]
      at hstart
    exact h ((List.dropWhile_sublist _).subset (List.mem_of_head? hstart))

namespace WellFormed

/-- The rule from where its prelude is read on. -/
theorem exists_front (h : r.WellFormed) (hblank : ¬ ∀ c ∈ r.selector, isAsciiBlank c = true) :
    ∃ gap c t, r.prelude = gap ++ c :: t ∧ (∀ d ∈ gap, isAsciiBlank d = true)
      ∧ (isAsciiBlank c || c == '\x7d') = false ∧ (∀ u, after? "/*" (c :: u) = none)
      ∧ (preludes.run (.plain 0) (c :: t) = some (.plain 0)
        ↔ preludes.run (.plain 0) r.comment = some (.plain 0))
      ∧ (trim (c :: t)).head? ≠ some '@' := by
  obtain ⟨gap, c, t, hs, hgap, hc⟩ := exists_start hblank
  have hmarks : ∀ d ∈ c :: t, d ∉ ("\n\"'\x7b\x7d;,()@/" : Text) := fun d hd =>
    h.selector d (by rw [hs]; exact List.mem_append_right gap hd)
  have hsubset : ∀ d ∈ ("\"'();\x7b" : Text), d ∈ ("\n\"'\x7b\x7d;,()@/" : Text) := by decide
  have hbegins : c ∉ ("\x7d/" : Text) := fun hm => hmarks c (by simp)
    ((by decide : ∀ d ∈ ("\x7d/" : Text), d ∈ ("\n\"'\x7b\x7d;,()@/" : Text)) c hm)
  refine ⟨gap, c, t ++ " /*" ++ r.comment ++ "*/ ", ?_, hgap, (start_of_not_mem hc hbegins []).1,
    fun u => (start_of_not_mem hc hbegins u).2, ?_, ?_⟩
  · simp [prelude, hs]
  · exact run_prelude_iff (fun d hd hm => hmarks d hd (hsubset d hm)) r.comment
  · have hat : '@' ∉ c :: t := fun hm => hmarks '@' hm (by decide)
    have hhead := head?_trim_prelude hat (r.comment ++ "*/ ")
    simpa using hhead

theorem text_append (r : CommentedRule) (rest : Text) : r.text ++ rest
    = r.prelude ++ PreludeEnd.block.char
      :: ((' ' :: r.declarations ++ [' ']) ++ '\x7d' :: (r.gap ++ rest)) := by
  simp [text, PreludeEnd.char]

variable (h : r.WellFormed)

include h

/-- A rule behind whose comment the reader of preludes is in plain text. -/
theorem parse_text_of_run (hblank : ¬ ∀ c ∈ r.selector, isAsciiBlank c = true)
    (hr : preludes.run (.plain 0) r.comment = some (.plain 0)) (rest : Text) :
    parse (r.text ++ rest) = r.nodes ++ parse rest := by
  obtain ⟨gap, c, t, hprelude, hgap, hstart, hcomment, hrun, hhead⟩ := h.exists_front hblank
  have hread := preludeEnd?_of_run (hrun.2 hr) .block
    ((' ' :: r.declarations ++ [' ']) ++ '\x7d' :: (r.gap ++ rest))
  have hbody := blockEnd?_whole h.declarations.whole (r.gap ++ rest)
  have hblank' : allBlank gap = true := List.all_eq_true.2 fun d hd => isBlank_of_isAsciiBlank (hgap d hd)
  have hselectors : splitSelectors (trim (c :: t)) = splitSelectors r.prelude := by
    rw [splitSelectors_trim, hprelude, splitSelectors_blanks hblank']
  rw [text_append, hprelude, List.append_assoc, parse_gap hgap]
  refine (parse_rule hstart (hcomment _) hread hbody hhead).trans ?_
  rw [hselectors, h.declarations.oneLine_eq, parse_gap h.gap, nodes, if_neg hblank, List.singleton_append]

/-- A comment behind blanks is a node of its own, whatever it holds. -/
theorem parse_text_of_blank (hblank : ∀ c ∈ r.selector, isAsciiBlank c = true) (rest : Text) :
    parse (r.text ++ rest) = r.nodes ++ parse rest := by
  have hshape : r.text ++ rest = (r.selector ++ [' ']) ++ ("/*" ++ r.comment ++ "*/" ++ ([' ']
      ++ '\x7b' :: ((' ' :: r.declarations ++ [' ']) ++ '\x7d' :: (r.gap ++ rest)))) := by
    simp [text, prelude]
  have hgap : ∀ c ∈ r.selector ++ [' '], isAsciiBlank c = true := fun c hc =>
    (List.mem_append.1 hc).elim (hblank c) fun hc => by rw [List.mem_singleton.1 hc]; rfl
  have hread := preludeEnd?_of_run (t := []) rfl .block
    ((' ' :: r.declarations ++ [' ']) ++ '\x7d' :: (r.gap ++ rest))
  have hbody := blockEnd?_whole h.declarations.whole (r.gap ++ rest)
  have hrule := parse_rule (by decide) (by simp [after?, PreludeEnd.char]) hread hbody (by decide)
  rw [hshape, parse_gap hgap, parse_comment h.comment, parse_gap (by decide)]
  refine (congrArg _ hrule).trans ?_
  rw [h.declarations.oneLine_eq, parse_gap h.gap, nodes, if_pos hblank]
  rfl

theorem parse_text (hr : r.IsUnnoticed) (rest : Text) :
    parse (r.text ++ rest) = r.nodes ++ parse rest := by
  by_cases hblank : ∀ c ∈ r.selector, isAsciiBlank c = true
  · exact h.parse_text_of_blank hblank rest
  · exact h.parse_text_of_run hblank (hr.resolve_left hblank) rest

/-- What is read of a rule behind whose comment the reader of preludes is elsewhere is not the rule. -/
theorem parse_text_ne (hr : ¬ r.IsUnnoticed) (rest : Text) (ns : List Node) :
    parse (r.text ++ rest) ≠ r.nodes ++ ns := by
  obtain ⟨hblank, hr⟩ := not_or.1 hr
  obtain ⟨gap, c, t, hprelude, hgap, hstart, hcomment, hrun, hhead⟩ := h.exists_front hblank
  rw [text_append, hprelude, List.append_assoc, parse_gap hgap, nodes, if_neg hblank]
  intro heq
  obtain ⟨found, body, hfound, hselectors⟩ := exists_prelude_of_parse hstart (hcomment _) heq
  have hblank' : allBlank gap = true := List.all_eq_true.2 fun d hd => isBlank_of_isAsciiBlank (hgap d hd)
  have hink : ink found = ink (c :: t) := by
    have hlist := congrArg (·.flatMap ink) hselectors
    simp only [flatMap_ink_splitSelectors] at hlist
    rw [← hlist, hprelude, ink_append, ink_of_allBlank hblank', List.nil_append]
  obtain rfl := prelude_unique (preludeEnd?_eq_some hfound).symm hink
  exact hr (hrun.1 (run_of_preludeEnd? hfound))

end WellFormed

end CommentedRule

open CommentedRule

/-- Each rule of a sheet with comments in its preludes is read as what it is exactly if the reader of
preludes comes out of each comment as it went in.  Then there is one rule for each that was written, in
order and with the declarations that were written. -/
theorem parse_commented {rs : List CommentedRule} (h : ∀ r ∈ rs, r.WellFormed) :
    (parse (rs.flatMap text) = rs.flatMap nodes ↔ ∀ r ∈ rs, r.IsUnnoticed)
      ∧ ((∀ r ∈ rs, r.IsUnnoticed) →
        (rules (parse (rs.flatMap text))).map (·.declarations) = rs.map (·.declarations)) := by
  have hiff : parse (rs.flatMap text) = rs.flatMap nodes ↔ ∀ r ∈ rs, r.IsUnnoticed := by
    induction rs with
    | nil => simp [parse]
    | cons r rs ih =>
      obtain ⟨hr, hrs⟩ := List.forall_mem_cons.1 h
      rw [List.flatMap_cons, List.flatMap_cons, List.forall_mem_cons, ← ih hrs]
      by_cases hunnoticed : r.IsUnnoticed
      · rw [hr.parse_text hunnoticed, List.append_cancel_left_eq]
        exact (and_iff_right hunnoticed).symm
      · exact iff_of_false (hr.parse_text_ne hunnoticed _ _) fun hall => hunnoticed hall.1
  refine ⟨hiff, fun hall => ?_⟩
  rw [hiff.2 hall, rules_flatMap_nodes]

/-- Comments with marks that belong together, and one behind a blank selector. -/
def remarkedRules : List CommentedRule :=
  [⟨".a > b", "see (c;d), not 'e\x7b'", "color: red; margin: 0", "\n"⟩, ⟨" ", "it's", "", ""⟩]

theorem parse_commented_remarked : (∀ r ∈ remarkedRules, r.WellFormed)
    ∧ (∀ r ∈ remarkedRules, r.IsUnnoticed)
    ∧ parse (remarkedRules.flatMap text) = remarkedRules.flatMap nodes
    ∧ (rules (parse (remarkedRules.flatMap text))).map (·.declarations)
      = remarkedRules.map (·.declarations) := by
  have hwritten : ∀ r ∈ remarkedRules, r.WellFormed := by
    intro r hr
    rcases (by simpa [remarkedRules] using hr : _ ∨ _) with rfl | rfl
    · exact ⟨by decide, by decide, by decide, by decide, ⟨by decide, by decide, by decide, by decide⟩,
        by decide⟩
    · exact ⟨by decide, by decide, by decide, by decide, ⟨by decide, by decide, by decide, by decide⟩,
        by decide⟩
  have hunnoticed : ∀ r ∈ remarkedRules, r.IsUnnoticed := by decide
  obtain ⟨hiff, hrules⟩ := parse_commented hwritten
  exact ⟨hwritten, hunnoticed, hiff.2 hunnoticed, hrules hunnoticed⟩

/-- An apostrophe in a comment. -/
def apostropheRules : List CommentedRule :=
  [⟨".a", "it's", "color: red;", "\n"⟩, ⟨".b", "c", "color: blue;", ""⟩]

/-- Of a sheet with an apostrophe in a comment no rule is read: the quote that it opens does not end. -/
theorem parse_commented_apostrophe : (∀ r ∈ apostropheRules, r.WellFormed)
    ∧ rules (parse (apostropheRules.flatMap text)) = []
    ∧ (rules (parse (apostropheRules.flatMap text))).map (·.declarations)
      ≠ apostropheRules.map (·.declarations) := by
  have hwritten : ∀ r ∈ apostropheRules, r.WellFormed := by
    intro r hr
    rcases (by simpa [apostropheRules] using hr : _ ∨ _) with rfl | rfl
    · exact ⟨by decide, by decide, by decide, by decide, ⟨by decide, by decide, by decide, by decide⟩,
        by decide⟩
    · exact ⟨by decide, by decide, by decide, by decide, ⟨by decide, by decide, by decide, by decide⟩,
        by decide⟩
  have hnone : rules (parse (apostropheRules.flatMap text)) = [] := by
    have htext : apostropheRules.flatMap text
        = '.' :: "a /*it's*/ \x7b color: red; \x7d\n.b /*c*/ \x7b color: blue; \x7d".toList := by decide
    have hopen : preludeEnd? none 0
        ('.' :: "a /*it's*/ \x7b color: red; \x7d\n.b /*c*/ \x7b color: blue; \x7d".toList) = none := by
      decide +kernel
    rw [htext, parse_of_no_prelude (by decide) (by decide +kernel) hopen, if_neg (by decide +kernel)]
    simp [rules]
  refine ⟨hwritten, hnone, ?_⟩
  rw [hnone]
  decide

end WidgetCompiler.Style
