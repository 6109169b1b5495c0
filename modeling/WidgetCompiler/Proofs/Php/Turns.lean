import WidgetCompiler.Proofs.Php.Region

/-!
# Turns of markup and statements

What a writer makes of a region, seen from behind its first `?>`: markup and statements in turns,
up to the line on which code is entered for good (`Turns`).  How it gets there depends on the last
call.  Behind markup a delimiter is written; behind a statement the one that would leave code is
taken back, and the statement's line goes on as a line of code.  Markup that ends in a `?>` of its own
is taken for a statement: its `?>` is taken back, and no code is entered at all.

`exists_turns` brings every region into this form, so that a property of what is written needs one
step for each of the four ways in which a turn goes on, and nothing about writers.
-/

namespace WidgetCompiler.Php

open Text Writer

/-- Markup and statements of the given kinds in turns, behind a `?>` and up to the end of the line
on which code is entered for good. -/
inductive Turns (shown run : Text → Prop) : Text → Prop
  | enter {t : Text} : shown t → allBlank t = false → Turns shown run (t ++ (openTag ++ ['\n']))
  | stay {t code : Text} : shown t → run code →
    Turns shown run (t ++ (openTag ++ ' ' :: code ++ ['\n']))
  | turn {t code rest : Text} : shown t → run code → Turns shown run rest →
    Turns shown run (t ++ (openTag ++ ' ' :: code ++ ' ' :: closeTag ++ rest))
  | lost {t gap : Text} : shown (t ++ closeTag ++ gap) → allBlank gap = true →
    Turns shown run (trimEnd t ++ ['\n'])

/-- A kind of markup that line ends and indentation make no difference to. -/
structure Spaced (indent : Text) (shown : Text → Prop) : Prop where
  nil : shown []
  first : ∀ {t}, shown t → shown ('\n' :: t)
  last : ∀ {t}, shown t → ∀ lineEnd : Text, lineEnd = [] ∨ lineEnd = ['\n'] →
    shown (t ++ lineEnd ++ indent)

/-- Turns of some kinds are turns of wider kinds. -/
theorem Turns.mono {shown shown' run run' : Text → Prop} {x : Text} (hx : Turns shown run x)
    (hshown : ∀ {t}, shown t → shown' t) (hrun : ∀ {t}, run t → run' t) : Turns shown' run' x := by
  induction hx with
  | enter ht hblank => exact .enter (hshown ht) hblank
  | stay ht hcode => exact .stay (hshown ht) (hrun hcode)
  | turn ht hcode _ ih => exact .turn (hshown ht) (hrun hcode) ih
  | lost ht hgap => exact .lost (hshown ht) hgap

namespace Writer

section

variable {shown run : Text → Prop} {calls : List Call}

theorem allBlank_flatMap_written (h : ∀ call ∈ calls, call.isBlankMarkup = true) :
    allBlank (calls.flatMap Call.written) = true := by
  induction calls with
  | nil => rfl
  | cons call calls ih =>
    obtain ⟨hcall, hcalls⟩ := List.forall_mem_cons.1 h
    obtain ⟨t, rfl⟩ := Call.exists_of_isBlankMarkup hcall
    rw [List.flatMap_cons, allBlank_append, ih hcalls, Bool.and_true]
    exact hcall

/-- A statement behind markup is the last turn if only blanks follow, and else one turn of more. -/
theorem exists_turns_code {v : Writer} {front t code : Text} {rest : List Call} (ht : shown t)
    (hrun : run code) (hcode : Statement code) (hv : v.mode = .markup)
    (htext : v.text = front ++ closeTag ++ t ++ (openTag ++ ' ' :: code ++ ' ' :: closeTag)
      ++ rest.flatMap Call.written)
    (hrest : (∃ call ∈ rest, call.isBlankMarkup = false) →
      ∀ front, v.text = front ++ closeTag ++ rest.flatMap Call.written →
      ∃ x, Turns shown run x
        ∧ v.enterCode = { v with text := front ++ closeTag ++ x, mode := .code }) :
    ∃ x, Turns shown run x ∧ t <+: x ∧
      v.enterCode = { v with text := front ++ closeTag ++ x, mode := .code } := by
  by_cases hblank : ∃ call ∈ rest, call.isBlankMarkup = false
  · obtain ⟨x, hx, henter⟩ := hrest hblank
      (front ++ closeTag ++ t ++ (openTag ++ ' ' :: code ++ [' '])) (by rw [htext]; simp)
    refine ⟨_, .turn ht hrun hx, List.prefix_append t _, ?_⟩
    rw [henter]
    simp
  · have hgap : allBlank (rest.flatMap Call.written) = true :=
      allBlank_flatMap_written fun call hcall => by
      by_contra hne
      exact hblank ⟨call, hcall, by simpa using hne⟩
    refine ⟨_, .stay ht hrun, List.prefix_append t _, ?_⟩
    rw [enterCode_of_inlineCode hv hcode.ends hgap htext]
    simp

/-- Behind markup that ends in a `?>`, that one is taken back. -/
theorem enterCode_of_closeTag {v : Writer} {front t gap : Text} (hv : v.mode = .markup)
    (hgap : allBlank gap = true) (htext : v.text = front ++ closeTag ++ (t ++ closeTag ++ gap)) :
    v.enterCode
      = { v with text := front ++ closeTag ++ (trimEnd t ++ ['\n']), mode := .code } := by
  have hkept : trimEnd (front ++ closeTag ++ t) = front ++ closeTag ++ trimEnd t := by
    cases ht : allBlank t with
    | true =>
      rw [trimEnd_append_of_allBlank ht, trimEnd_of_allBlank ht, List.append_nil]
      exact trimEnd_of_getLast? (c := '>') (by simp [closeTag]) (by decide)
    | false => exact trimEnd_append_of_not_allBlank ht
  have htake : takeBackClose? v.text = some (front ++ closeTag ++ trimEnd t) := by
    have hsplit : v.text = front ++ closeTag ++ t ++ closeTag ++ gap := by
      rw [htext]
      simp
    rw [hsplit, takeBackClose?_append _ hgap, hkept]
  simp only [Writer.enterCode, hv, htake, List.append_assoc]

/-- What is left of markup before its `?>` begins on the next line if the markup does. -/
theorem newline_prefix_trimEnd {t u v : Text} (h : '\n' :: t = u ++ closeTag ++ v) :
    ['\n'] <+: trimEnd u ++ ['\n'] := by
  cases u with
  | nil => exact absurd (List.cons.inj h).1 (by decide)
  | cons c u =>
    obtain rfl : '\n' = c := (List.cons.inj h).1
    cases hu : allBlank u with
    | true =>
      have hblank : allBlank ('\n' :: u) = true := Bool.and_eq_true_iff.2 ⟨rfl, hu⟩
      rw [trimEnd_of_allBlank hblank]
      exact List.prefix_rfl
    | false =>
      have hkept : trimEnd ('\n' :: u) = '\n' :: trimEnd u :=
        trimEnd_append_of_not_allBlank (s := ['\n']) hu
      rw [hkept]
      exact List.prefix_append ['\n'] _

/-- A region that shows something, or has code in it, is a sequence of turns behind a `?>`. -/
theorem exists_turns_of_markup (h : Region calls) {indent : Text} (hspaced : Spaced indent shown)
    (hshown : ∀ t, .markup t ∈ calls → shown t) (hrun : ∀ code, .inlineCode code ∈ calls → run code)
    (hvisible : ∃ call ∈ calls, call.isBlankMarkup = false) {before : Text}
    (hbefore : before = [] ∨ before = ['\n']) {v : Writer} {front : Text} (hv : v.mode = .markup)
    (hindent : v.indent = indent)
    (htext : v.text = front ++ closeTag ++ (before ++ calls.flatMap Call.written)) :
    ∃ x, Turns shown run x ∧ before <+: x ∧
      v.enterCode = { v with text := front ++ closeTag ++ x, mode := .code } := by
  have hjoin {before t : Text} (hbefore : before = [] ∨ before = ['\n']) (ht : shown t) :
      shown (before ++ t) := by
    rcases hbefore with rfl | rfl
    · exact ht
    · exact hspaced.first ht
  induction calls, h using Region.induction generalizing before v front with
  | nil => simp at hvisible
  | markup t h =>
    have hblank : allBlank (before ++ t) = false := by
      have ht : allBlank t = false := by simpa [Call.isBlankMarkup] using hvisible
      rw [allBlank_append, ht, Bool.and_false]
    have ht : shown (before ++ t) := hjoin hbefore (hshown t (by simp))
    by_cases hend : closeTag <:+ trimEnd (before ++ t)
    · obtain ⟨u, hu⟩ := hend
      obtain ⟨gap, hgap, hsplit⟩ := exists_trimEnd (before ++ t)
      rw [← hu] at hsplit
      rw [hsplit] at ht
      refine ⟨_, .lost ht hgap, ?_, enterCode_of_closeTag hv hgap ?_⟩
      · rcases hbefore with rfl | rfl
        · exact List.nil_prefix
        · exact newline_prefix_trimEnd hsplit
      · rw [htext, ← hsplit]
        simp [Call.written]
    · have hfront : ∀ c ∈ (front ++ closeTag).getLast?, c ≠ '?' := by
        intro c hc
        obtain rfl : '>' = c := by simpa [closeTag] using hc
        decide
      obtain ⟨lineEnd, hlineEnd, henter⟩ :=
        enterCode_of_markup hv hfront hblank hend (by simpa [Call.written] using htext)
      have hlast : allBlank (before ++ t ++ lineEnd ++ indent) = false := by
        rw [allBlank_append, allBlank_append, hblank, Bool.false_and, Bool.false_and]
      refine ⟨_, .enter (hspaced.last ht lineEnd hlineEnd) hlast,
        ⟨t ++ lineEnd ++ indent ++ (openTag ++ ['\n']), by simp⟩, ?_⟩
      rw [henter, htext, hindent]
      simp [Call.written]
  | code code rest h hcode hregion ih =>
    have ht : shown before := by
      have := hjoin hbefore hspaced.nil
      rwa [List.append_nil] at this
    have htext : v.text = front ++ closeTag ++ before
        ++ (openTag ++ ' ' :: code ++ ' ' :: closeTag) ++ rest.flatMap Call.written := by
      simpa [Call.written] using htext
    refine exists_turns_code ht (hrun code (by simp)) hcode hv htext fun hrest front htext => ?_
    obtain ⟨x, hx, -, henter⟩ := ih (fun t ht => hshown t (by simp [ht]))
      (fun c hc => hrun c (by simp [hc])) hrest (.inl rfl) hv hindent htext
    exact ⟨x, hx, henter⟩
  | both t code rest h hcode hregion ih =>
    have htext : v.text = front ++ closeTag ++ (before ++ t)
        ++ (openTag ++ ' ' :: code ++ ' ' :: closeTag) ++ rest.flatMap Call.written := by
      simpa [Call.written] using htext
    obtain ⟨x, hx, hprefix, henter⟩ := exists_turns_code (hjoin hbefore (hshown t (by simp)))
      (hrun code (by simp)) hcode hv htext fun hrest front htext => by
        obtain ⟨x, hx, -, henter⟩ := ih (fun t ht => hshown t (by simp [ht]))
          (fun c hc => hrun c (by simp [hc])) hrest (.inl rfl) hv hindent htext
        exact ⟨x, hx, henter⟩
    exact ⟨x, hx, (List.prefix_append before t).trans hprefix, henter⟩

/-- A writer in code that comes back to it behind a region has written a `?>` and turns, or nothing
at all.  The turns begin on the next line. -/
theorem exists_turns (h : Region calls) {w : Writer} (hspaced : Spaced w.indent shown)
    (hw : w.mode = .code) (hshown : ∀ t, .markup t ∈ calls → shown t)
    (hrun : ∀ code, .inlineCode code ∈ calls → run code) :
    (w.performAll calls).enterCode = w ∨ ∃ x, Turns shown run x ∧ ['\n'] <+: x ∧
      (w.performAll calls).enterCode = { w with text := w.text ++ w.indent ++ closeTag ++ x } := by
  rw [← performAll_dropWhile hw]
  have hdrop := h.dropWhile Call.isBlankMarkup
  have hmem : ∀ {call}, call ∈ calls.dropWhile Call.isBlankMarkup → call ∈ calls :=
    fun hc => (List.dropWhile_sublist _).subset hc
  have hhead := List.head?_dropWhile_not Call.isBlankMarkup calls
  generalize calls.dropWhile Call.isBlankMarkup = rest at hdrop hmem hhead ⊢
  cases rest with
  | nil =>
    refine .inl ?_
    simp [performAll, Writer.enterCode, hw]
  | cons call rest =>
    have hcall : call.isBlankMarkup = false := by simpa using hhead
    have hv := performAll_of_code hdrop.pieces hcall hw
    have htext : (w.performAll (call :: rest)).text = (w.text ++ w.indent) ++ closeTag
        ++ (['\n'] ++ (call :: rest).flatMap Call.written) := by
      rw [hv]
      simp
    obtain ⟨x, hx, hprefix, henter⟩ := exists_turns_of_markup hdrop hspaced
      (fun t ht => hshown t (hmem ht)) (fun c hc => hrun c (hmem hc)) ⟨call, by simp, hcall⟩
      (.inr rfl) (by rw [hv]) (by rw [hv]) htext
    refine .inr ⟨x, hx, hprefix, ?_⟩
    rw [henter, hv, hw]

end

end Writer

end WidgetCompiler.Php
