import WidgetCompiler.Proofs.Php.Alternation
import WidgetCompiler.Proofs.Php.Reading

/-!
# Running a region

Whoever runs what a writer has written for a region does what its pieces say: he prints the markup,
but for a line end directly behind a piece of code, and does what the code says
(`Alternation.swallowed`).  This holds up to the blanks by which the writer's text differs from the
pieces at its ends, so what is printed is the same up to blanks around it (`run_written`).
-/

namespace WidgetCompiler.Php

open Text

namespace Machine

variable {functions : Text → Text → Text} {m m' : Machine} {is : List Instruction} {t u p : Text}

theorem print_print (m : Machine) (t u : Text) : (m.print t).print u = m.print (t ++ u) := by
  simp [print]

theorem acts_print (m : Machine) (t : Text) : (m.print t).acts = m.acts := rfl

theorem run_show (m : Machine) (t : Text) (is : List Instruction) :
    m.run functions (.print t :: is) = (if m.acts then m.print t else m).run functions is := rfl

theorem run_show_nil (m : Machine) (is : List Instruction) :
    m.run functions (.print [] :: is) = m.run functions is := by
  have hprint : m.print [] = m := by simp [print]
  rw [run_show, hprint, ite_self]

theorem run_show_append (m : Machine) (t u : Text) (is : List Instruction) :
    m.run functions (.print (t ++ u) :: is) = m.run functions (.print t :: .print u :: is) := by
  rw [run_show, run_show, run_show]
  split
  · next h => rw [acts_print, h, if_pos rfl, print_print]
  · rfl

/-- What is printed last can be taken off. -/
theorem run_concat_show (h : m.run functions (is ++ [.print t]) = some m') (hacts : m'.acts = true) :
    ∃ m₁ : Machine, m.run functions is = some m₁ ∧ m₁.acts = true ∧ m' = m₁.print t := by
  rw [run_append] at h
  obtain ⟨m₁, hm₁, hlast⟩ := Option.bind_eq_some_iff.1 h
  rw [run_show] at hlast
  have hstate : (if m₁.acts then m₁.print t else m₁) = m' := Option.some.inj hlast
  have hacts₁ : m₁.acts = true := by
    rw [← hstate] at hacts
    split at hacts
    · next h => exact h
    · exact hacts
  rw [if_pos hacts₁] at hstate
  exact ⟨m₁, hm₁, hacts₁, hstate.symm⟩

/-- The machine with text in front of what it has printed. -/
def behind (p : Text) (m : Machine) : Machine := { m with printed := p ++ m.printed }

theorem step_behind (p : Text) (m : Machine) (i : Instruction) :
    (m.behind p).step functions i = (m.step functions i).map (behind p) := by
  have hprint (t : Text) : (m.behind p).print t = (m.print t).behind p := by simp [behind, print]
  have hacts : (m.behind p).acts = m.acts := rfl
  cases i with
  | print t =>
    simp only [step, hacts, hprint]
    split <;> rfl
  | assign name e =>
    simp only [step, hacts]
    split
    · rw [Option.map_map]
      rfl
    · rfl
  | echo function e =>
    simp only [step, hacts, hprint]
    split
    · rw [Option.map_map]
      rfl
    · rfl
  | test o =>
    simp only [step, hacts]
    split
    · rw [Option.map_map]
      rfl
    · rfl
  | endTest =>
    obtain ⟨vars, printed, tests⟩ := m
    cases tests <;> rfl

/-- Nothing that is done depends on what was printed before. -/
theorem run_behind (p : Text) (m : Machine) (is : List Instruction) :
    (m.behind p).run functions is = (m.run functions is).map (behind p) := by
  induction is generalizing m with
  | nil => rfl
  | cons i is ih =>
    rw [run, run, step_behind, Option.bind_map, Option.map_bind]
    exact congrArg _ (funext fun m => ih m)

end Machine

/-! ## The instructions of a region -/

/-- The instructions of a piece of code. -/
def instructionsOf (code : Text) : List Instruction := (readProgram? code).getD []

theorem Instructs.instructionsOf_eq {code : Text} {is : List Instruction} (h : Instructs code is) :
    instructionsOf code = is := by
  rw [instructionsOf, h.readProgram?_eq, Option.getD_some]

namespace Writer

namespace Alternation

/-- What the pieces say. -/
def instructions (a : Alternation) : List Instruction :=
  .print a.front :: a.turns.flatMap fun turn => instructionsOf turn.1 ++ [.print turn.2]

/-- The pieces without a line end directly behind code. -/
def swallowed (a : Alternation) : Alternation :=
  ⟨a.front, a.turns.map fun turn => (turn.1, dropLineEnd turn.2)⟩

/-- Every piece can be read: no markup begins an instruction, and every piece of code is known. -/
structure Readable (a : Alternation) : Prop where
  front : Lacks "<?" a.front
  markup : ∀ turn ∈ a.turns, Lacks "<?" turn.2
  code : ∀ turn ∈ a.turns, Instructs turn.1 (instructionsOf turn.1)

end Alternation

open Alternation

variable {functions : Text → Text → Text} {a b : Alternation} {code : Text}

/-- What is read of turns behind a `?>`, up to where code begins for good. -/
theorem instructs_turns {t : Text} {turns : List (Text × Text)} (ht : Lacks "<?" t)
    (hmarkup : ∀ turn ∈ turns, Lacks "<?" turn.2)
    (hcode : ∀ turn ∈ turns, Instructs turn.1 (instructionsOf turn.1)) :
    Instructs (closeTag ++ (t ++ turns.flatMap turnText ++ openTag)) (.print (dropLineEnd t)
      :: turns.flatMap fun turn => instructionsOf turn.1 ++ [.print (dropLineEnd turn.2)]) := by
  induction turns generalizing t with
  | nil => simpa using Instructs.of_shown ht
  | cons turn turns ih =>
    have hspace : Instructs [' '] [] := Instructs.of_blanks (by decide)
    have hrest := ih (hmarkup turn (by simp)) (fun turn' h => hmarkup turn' (by simp [h]))
      fun turn' h => hcode turn' (by simp [h])
    have := (Instructs.of_shown ht).append
      (((hspace.append (hcode turn (by simp))).append hspace).append hrest)
    simpa [turnText] using this

/-- What is read of a region as it is written, with the line end behind its first `?>`. -/
theorem instructs_text (h : b.Readable) :
    Instructs (closeTag ++ ('\n' :: b.text) ++ openTag) b.swallowed.instructions := by
  have hfront : Lacks "<?" ('\n' :: b.front) :=
    lacks_allBlank_append (s := ['\n']) rfl h.front
  have := instructs_turns hfront h.markup h.code
  simpa [Alternation.text, Alternation.instructions, Alternation.swallowed, dropLineEnd,
    List.flatMap_map] using this

theorem allBlank_dropLineEnd {t : Text} (h : allBlank t = true) : allBlank (dropLineEnd t) = true := by
  have hsuffix : dropLineEnd t <:+ t := by
    unfold dropLineEnd
    split
    · exact ⟨['\r', '\n'], rfl⟩
    · exact ⟨['\r'], rfl⟩
    · exact ⟨['\n'], rfl⟩
    · exact List.suffix_rfl
  exact List.all_eq_true.2 fun c hc => isBlank_of_mem h (hsuffix.subset hc)

/-- A line end is found at the start of a text that goes on behind it. -/
theorem dropLineEnd_append {t : Text} (h : allBlank t = false) (gap : Text) :
    dropLineEnd (t ++ gap) = dropLineEnd t ++ gap := by
  cases t with
  | nil => exact absurd h (by decide)
  | cons c t =>
    cases t with
    | nil =>
      have hreturn : c ≠ '\r' := by
        rintro rfl
        exact absurd h (by decide)
      have hline : c ≠ '\n' := by
        rintro rfl
        exact absurd h (by decide)
      simp [dropLineEnd, hreturn, hline]
    | cons d t =>
      by_cases hreturn : c = '\r'
      · by_cases hline : d = '\n' <;> simp [dropLineEnd, hreturn, hline]
      · by_cases hline : c = '\n' <;> simp [dropLineEnd, hreturn, hline]

/-- What is written at the end of a region is printed there, but for blanks. -/
theorem run_concat_markup {m m' : Machine} {is : List Instruction} {t : Text}
    (hrun : m.run functions (is ++ [.print t]) = some m') (hacts : m'.acts = true) {gap : Text}
    (hgap : allBlank gap = true) :
    ∃ m'' : Machine, m.run functions (is ++ [.print (t ++ gap)]) = some m'' ∧ m''.tests = m'.tests
      ∧ trim m''.printed = trim m'.printed := by
  obtain ⟨m₁, hm₁, hacts₁, rfl⟩ := Machine.run_concat_show hrun hacts
  refine ⟨m₁.print (t ++ gap), ?_, rfl, ?_⟩
  · rw [Machine.run_append, hm₁, Option.bind_some, Machine.run_show, if_pos hacts₁]
    rfl
  · rw [← Machine.print_print]
    exact trim_append_right hgap

/-- The code behind the last `<?php` is read, and the pieces as they are written do what the pieces
say, up to blanks at the end. -/
theorem run_ends (hends : a.Ends b code) (h : a.Readable) {m m' : Machine}
    (hrun : m.run functions a.swallowed.instructions = some m') (hacts : m'.acts = true) :
    b.Readable ∧ ∃ is, Instructs code is ∧ ∃ m'' : Machine,
      m.run functions (b.swallowed.instructions ++ is) = some m'' ∧ m''.tests = m'.tests
        ∧ trim m''.printed = trim m'.printed := by
  have hnewline : Instructs ['\n'] [] := Instructs.of_blanks (by decide)
  have hspace : Instructs [' '] [] := Instructs.of_blanks (by decide)
  have hconcat (front code t : Text) (turns : List (Text × Text)) :
      (swallowed ⟨front, turns ++ [(code, t)]⟩).instructions
        = (swallowed ⟨front, turns⟩).instructions ++ instructionsOf code
          ++ [.print (dropLineEnd t)] := by
    simp [instructions, swallowed]
  cases hends with
  | @front t gap ht hgap =>
    refine ⟨⟨lacks_append_of_allBlank h.front hgap, by simp, by simp⟩, [], hnewline, ?_⟩
    rw [List.append_nil]
    rw [← List.nil_append (instructions _)] at hrun
    exact run_concat_markup hrun hacts hgap
  | @markup front code t gap turns ht hgap =>
    have hmarkup : ∀ turn ∈ turns ++ [(code, t ++ gap)], Lacks "<?" turn.2 := by
      intro turn hturn
      rcases List.mem_append.1 hturn with hturn | hturn
      · exact h.markup turn (List.mem_append_left _ hturn)
      · rw [List.mem_singleton.1 hturn]
        exact lacks_append_of_allBlank (h.markup (code, t) (by simp)) hgap
    have hcode : ∀ turn ∈ turns ++ [(code, t ++ gap)], Instructs turn.1 (instructionsOf turn.1) := by
      intro turn hturn
      rcases List.mem_append.1 hturn with hturn | hturn
      · exact h.code turn (List.mem_append_left _ hturn)
      · rw [List.mem_singleton.1 hturn]
        exact h.code (code, t) (by simp)
    refine ⟨⟨h.front, hmarkup, hcode⟩, [], hnewline, ?_⟩
    rw [hconcat] at hrun
    rw [List.append_nil, hconcat, dropLineEnd_append ht]
    exact run_concat_markup hrun hacts hgap
  | @code front code t turns ht =>
    have hturns {turn : Text × Text} (hturn : turn ∈ turns) : turn ∈ turns ++ [(code, t)] :=
      List.mem_append_left _ hturn
    have hinstructs := (hspace.append (h.code (code, t) (by simp))).append hnewline
    rw [List.nil_append, List.append_nil] at hinstructs
    refine ⟨⟨h.front, fun turn hturn => h.markup turn (hturns hturn),
      fun turn hturn => h.code turn (hturns hturn)⟩, _, hinstructs, ?_⟩
    rw [hconcat] at hrun
    obtain ⟨m₁, hm₁, -, rfl⟩ := Machine.run_concat_show hrun hacts
    exact ⟨m₁, hm₁, rfl, (trim_append_right (allBlank_dropLineEnd ht)).symm⟩

/-! ## The instructions of calls -/

/-- What a call says. -/
def Call.instructions : Call → List Instruction
  | .markup t => [.print t]
  | .inlineCode code => instructionsOf code
  | _ => []

/-- The call without a line end at the start of its markup. -/
def Call.swallow : Call → Call
  | .markup t => .markup (dropLineEnd t)
  | call => call

/-- The calls as they are shown: only markup at the very beginning keeps a line end at its start. -/
def swallowCalls : List Call → List Call
  | .markup t :: calls => .markup t :: calls.map Call.swallow
  | calls => calls.map Call.swallow

variable {calls : List Call}

/-- Joining pieces of markup makes no difference to what is done. -/
theorem run_ofCalls (h : Pieces calls) (m : Machine) :
    m.run functions (ofCalls calls).instructions
      = m.run functions (calls.flatMap Call.instructions) := by
  induction calls generalizing m with
  | nil => exact Machine.run_show_nil m []
  | cons call calls ih =>
    have hrest := ih fun c hc => h c (by simp [hc])
    cases hcall : call.isMarkup with
    | true =>
      obtain ⟨t, rfl⟩ := Call.exists_of_isMarkup hcall
      rw [List.flatMap_cons]
      change m.run functions (.print (t ++ _) :: _) = m.run functions (.print t :: _)
      rw [Machine.run_show_append, Machine.run_show, Machine.run_show]
      exact hrest _
    | false =>
      obtain ⟨code, rfl⟩ := h call (by simp) hcall
      have hinstructions : (ofCalls (.inlineCode code :: calls)).instructions
          = .print [] :: (instructionsOf code ++ (ofCalls calls).instructions) := by
        simp [ofCalls, instructions]
      rw [hinstructions, Machine.run_show_nil, List.flatMap_cons, Machine.run_append,
        Call.instructions, Machine.run_append]
      exact congrArg _ (funext hrest)

theorem ofCalls_map_swallow (h : Region calls) :
    ofCalls (calls.map Call.swallow)
      = ⟨dropLineEnd (ofCalls calls).front,
          (ofCalls calls).turns.map fun turn => (turn.1, dropLineEnd turn.2)⟩ := by
  induction calls, h using Region.induction with
  | nil => rfl
  | markup t => simp [ofCalls, Call.swallow]
  | code code rest _ _ _ ih => simp [ofCalls, Call.swallow, ih, dropLineEnd]
  | both t code rest _ _ _ ih => simp [ofCalls, Call.swallow, ih]

/-- Where the calls alternate, it makes no difference whether line ends are dropped before or after
the pieces are put together. -/
theorem swallowed_ofCalls (h : Region calls) : (ofCalls calls).swallowed = ofCalls (swallowCalls calls) := by
  induction calls, h using Region.induction with
  | nil => rfl
  | markup t => rfl
  | code code rest _ _ hrest _ =>
    simp [ofCalls, swallowCalls, swallowed, Call.swallow, ofCalls_map_swallow hrest]
  | both t code rest _ _ hrest _ =>
    simp [ofCalls, swallowCalls, swallowed, Call.swallow, ofCalls_map_swallow hrest]

theorem pieces_swallowCalls (h : Pieces calls) : Pieces (swallowCalls calls) := by
  have hmap {calls : List Call} (h : Pieces calls) : Pieces (calls.map Call.swallow) := by
    intro call hc hcall
    obtain ⟨call, hmem, rfl⟩ := List.mem_map.1 hc
    cases call with
    | markup t => simp [Call.swallow, Call.isMarkup] at hcall
    | _ => exact h _ hmem rfl
  cases calls with
  | nil => exact hmap h
  | cons call calls =>
    cases call with
    | markup t =>
      intro c hc hcall
      rcases List.mem_cons.1 hc with rfl | hc
      · simp [Call.isMarkup] at hcall
      · exact hmap (fun c hc => h c (List.mem_cons_of_mem _ hc)) c hc hcall
    | _ => exact hmap h

theorem readable_ofCalls (h : Region calls) (hmarkup : ∀ t, .markup t ∈ calls → Lacks "<?" t)
    (hcode : ∀ code, .inlineCode code ∈ calls → Instructs code (instructionsOf code)) :
    (ofCalls calls).Readable := by
  have hlacks (t : Text) (ht : t = [] ∨ .markup t ∈ calls) : Lacks "<?" t := by
    rcases ht with rfl | ht
    · decide
    · exact hmarkup t ht
  exact ⟨hlacks _ (of_mem_ofCalls h _ (.inl rfl)),
    fun turn hturn => hlacks _ (of_mem_ofCalls h _ (.inr (List.mem_map_of_mem hturn))),
    fun turn hturn => hcode _ (mem_turns_ofCalls hturn)⟩

theorem allBlank_of_isCodeBlank {t : Text} (h : ∀ c ∈ t, isCodeBlank c = true) :
    allBlank t = true := by
  refine List.all_eq_true.2 fun c hc => ?_
  have := h c hc
  simp only [isCodeBlank, Bool.or_eq_true, beq_iff_eq] at this
  rcases this with ((rfl | rfl) | rfl) | rfl <;> decide

/-- What a writer in code has written when it comes back to code behind a region does what the calls
say, but for line ends directly behind code and for blanks around all that is printed. -/
theorem run_written {w : Writer} (hw : w.mode = .code)
    (hindent : ∀ c ∈ w.indent, isCodeBlank c = true) (h : Region calls) (hend : ¬ EndsItself calls)
    (hshows : ∃ call ∈ calls, call.isBlankMarkup = false)
    (hmarkup : ∀ t, .markup t ∈ calls → Lacks "<?" t)
    (hcode : ∀ code, .inlineCode code ∈ calls → Instructs code (instructionsOf code))
    {m m' : Machine} (hm : m.printed = []) (hacts : m.acts = true)
    (hrun : m.run functions ((swallowCalls calls).flatMap Call.instructions) = some m')
    (hacts' : m'.acts = true) :
    ∃ region is, (w.performAll calls).enterCode.text = w.text ++ region ∧ Instructs region is
      ∧ ∃ m'' : Machine, m.run functions is = some m'' ∧ m''.tests = m'.tests
        ∧ trim m''.printed = trim m'.printed := by
  have hnot : ¬ closeTag <:+ trimEnd (ofCalls calls).last := by
    rcases last_ofCalls h with hlast | hlast
    · rw [hlast]
      decide
    · exact fun hsuffix => hend ⟨_, hlast, hsuffix⟩
  have hends : ∀ turn ∈ (ofCalls calls).turns, ∃ c ∈ turn.1.getLast?, isBlank c = false := by
    intro turn hturn
    obtain ⟨code, hcall, hstatement⟩ := h.statements _ (mem_turns_ofCalls hturn) rfl
    obtain rfl := Call.inlineCode.inj hcall
    exact hstatement.ends
  obtain ⟨gap, a, b, code, hgap, hcalls, hends, htext⟩ :=
    exists_written hw (allBlank_of_isCodeBlank hindent) h.pieces hshows hends hnot
  have hreadable : a.Readable := by
    have := readable_ofCalls h hmarkup hcode
    rw [hcalls] at this
    exact ⟨this.front.of_infix (List.suffix_append gap _).isInfix, this.markup, this.code⟩
  -- the blanks that the writer passed over are printed first
  have hbehind : m.print gap = m.behind gap := by
    simp [Machine.print, Machine.behind, hm]
  rw [← run_ofCalls (pieces_swallowCalls h.pieces), ← swallowed_ofCalls h, hcalls] at hrun
  change m.run functions (.print (gap ++ a.front) :: _) = some m' at hrun
  rw [Machine.run_show_append, Machine.run_show, if_pos hacts, hbehind, Machine.run_behind] at hrun
  obtain ⟨m₀, hm₀, rfl⟩ := Option.map_eq_some_iff.1 hrun
  obtain ⟨hread, is, his, m'', hm'', htests, hprinted⟩ := run_ends hends hreadable hm₀ hacts'
  refine ⟨w.indent ++ (closeTag ++ ('\n' :: b.text) ++ openTag) ++ code, _, ?_,
    ((Instructs.of_blanks hindent).append (instructs_text hread)).append his, m'', hm'', htests,
    hprinted.trans (trim_append_left hgap).symm⟩
  rw [htext]
  simp

end Writer

end WidgetCompiler.Php
