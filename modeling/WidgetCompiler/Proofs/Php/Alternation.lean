import Mathlib.Data.List.TakeWhile
import WidgetCompiler.Proofs.Php.Region

/-!
# Markup and code in turns

What a region asks for is markup and pieces of code in turns, whether or not its calls are merged:
an `Alternation` holds the markup before the first piece of code, and each piece of code with the
markup behind it.

A writer that comes back to code behind a region has written just these pieces (`exists_written`).
Only at the two ends there is more or less of blanks, and the last piece of code may stand open, with
the line end of code in place of its `?>` (`Alternation.Ends`).
-/

namespace WidgetCompiler.Php.Writer

open Text

/-- Markup and pieces of code in turns. -/
structure Alternation where
  /-- The markup before the first piece of code. -/
  front : Text
  /-- Each piece of code with the markup behind it. -/
  turns : List (Text × Text)
deriving DecidableEq, Repr

/-- What is written for a piece of code and the markup behind it. -/
def turnText (turn : Text × Text) : Text :=
  openTag ++ ' ' :: turn.1 ++ ' ' :: closeTag ++ turn.2

namespace Alternation

/-- The pieces as they are written. -/
def text (a : Alternation) : Text := a.front ++ a.turns.flatMap turnText

/-- The markup at the end. -/
def last (a : Alternation) : Text := (a.turns.getLast?.map (·.2)).getD a.front

/-- What calls ask for, with neighbouring pieces of markup joined. -/
def ofCalls : List Call → Alternation
  | [] => ⟨[], []⟩
  | .markup t :: calls => ⟨t ++ (ofCalls calls).front, (ofCalls calls).turns⟩
  | .inlineCode code :: calls => ⟨[], (code, (ofCalls calls).front) :: (ofCalls calls).turns⟩
  | _ :: calls => ofCalls calls

theorem written_ofCalls {calls : List Call} (h : Pieces calls) :
    calls.flatMap Call.written = (ofCalls calls).text := by
  induction calls with
  | nil => rfl
  | cons call calls ih =>
    have hrest := ih fun c hc => h c (by simp [hc])
    cases hcall : call.isMarkup with
    | true =>
      obtain ⟨t, rfl⟩ := Call.exists_of_isMarkup hcall
      simp [ofCalls, text, Call.written, hrest]
    | false =>
      obtain ⟨code, rfl⟩ := h call (by simp) hcall
      simp [ofCalls, text, Call.written, turnText, hrest]

/-- What stands behind some calls counts only for what it asks for in a row. -/
theorem ofCalls_append_congr {calls behind behind' : List Call} (h : ofCalls behind = ofCalls behind') :
    ofCalls (calls ++ behind) = ofCalls (calls ++ behind') := by
  induction calls with
  | nil => exact h
  | cons call calls ih => cases call <;> simp only [List.cons_append, ofCalls, ih]

/-- What is passed over at the beginning of a region are blanks before the first piece of code. -/
theorem ofCalls_dropWhile (calls : List Call) :
    ∃ gap, allBlank gap = true ∧ ofCalls calls
      = ⟨gap ++ (ofCalls (calls.dropWhile Call.isBlankMarkup)).front,
          (ofCalls (calls.dropWhile Call.isBlankMarkup)).turns⟩ := by
  induction calls with
  | nil => exact ⟨[], rfl, rfl⟩
  | cons call calls ih =>
    cases hc : call.isBlankMarkup with
    | false => exact ⟨[], rfl, by rw [List.dropWhile_cons_of_neg (by simp [hc]), List.nil_append]⟩
    | true =>
      obtain ⟨t, rfl⟩ := Call.exists_of_isBlankMarkup hc
      obtain ⟨gap, hgap, heq⟩ := ih
      have ht : allBlank t = true := hc
      refine ⟨t ++ gap, by simp [ht, hgap], ?_⟩
      rw [List.dropWhile_cons_of_pos hc, ofCalls, heq, List.append_assoc]

/-- Where the first call shows something, the alternation does. -/
theorem allBlank_front_ofCalls {call : Call} {calls : List Call} (h : Pieces (call :: calls))
    (hcall : call.isBlankMarkup = false) (hturns : (ofCalls (call :: calls)).turns = []) :
    allBlank (ofCalls (call :: calls)).front = false := by
  cases hmarkup : call.isMarkup with
  | true =>
    obtain ⟨t, rfl⟩ := Call.exists_of_isMarkup hmarkup
    have ht : allBlank t = false := hcall
    simp [ofCalls, ht]
  | false =>
    obtain ⟨code, rfl⟩ := h call (by simp) hmarkup
    simp [ofCalls] at hturns

/-! ## The pieces of a region -/

theorem mem_turns_ofCalls {calls : List Call} {turn : Text × Text}
    (h : turn ∈ (ofCalls calls).turns) : .inlineCode turn.1 ∈ calls := by
  fun_induction ofCalls calls with
  | case1 => exact absurd h List.not_mem_nil
  | case2 t calls ih => exact List.mem_cons_of_mem _ (ih h)
  | case3 code calls ih =>
    rcases List.mem_cons.1 h with rfl | h
    · exact List.mem_cons_self ..
    · exact List.mem_cons_of_mem _ (ih h)
  | case4 call calls _ _ ih => exact List.mem_cons_of_mem _ (ih h)

/-- Where the calls alternate, each piece of markup in a row is one that a call asks for, or none. -/
theorem of_mem_ofCalls {calls : List Call} (h : Region calls) :
    ∀ t, t = (ofCalls calls).front
      ∨ t ∈ (ofCalls calls).turns.map (·.2) → t = [] ∨ .markup t ∈ calls := by
  induction calls, h using Region.induction with
  | nil => simp [ofCalls]
  | markup t => simp [ofCalls]
  | code code rest _ _ _ ih =>
    intro t ht
    simp only [ofCalls, List.map_cons, List.mem_cons] at ht
    rcases ht with rfl | ht
    · exact .inl rfl
    · exact (ih t ht).imp_right (List.mem_cons_of_mem _)
  | both u code rest _ _ _ ih =>
    intro t ht
    simp only [ofCalls, List.append_nil, List.map_cons, List.mem_cons] at ht
    rcases ht with rfl | ht
    · exact .inr (List.mem_cons_self ..)
    · exact (ih t ht).imp_right fun hm => List.mem_cons_of_mem _ (List.mem_cons_of_mem _ hm)

/-- Where the calls alternate, the markup at the end is that of the last call, or none. -/
theorem last_ofCalls {calls : List Call} (h : Region calls) :
    (ofCalls calls).last = [] ∨ calls.getLast? = some (.markup (ofCalls calls).last) := by
  induction calls, h using Region.induction with
  | nil => exact .inl rfl
  | markup t => exact .inr (by simp [ofCalls, last])
  | code code rest _ _ _ ih =>
    have hlast : (ofCalls (.inlineCode code :: rest)).last = (ofCalls rest).last := by
      simp only [ofCalls, last, List.getLast?_cons]
      cases (ofCalls rest).turns.getLast? <;> rfl
    rw [hlast]
    refine ih.imp_right fun hrest => ?_
    rw [List.getLast?_cons, hrest]
    rfl
  | both t code rest _ _ _ ih =>
    have hlast : (ofCalls (.markup t :: .inlineCode code :: rest)).last = (ofCalls rest).last := by
      simp only [ofCalls, last, List.getLast?_cons]
      cases (ofCalls rest).turns.getLast? <;> rfl
    rw [hlast]
    refine ih.imp_right fun hrest => ?_
    rw [List.getLast?_cons, List.getLast?_cons, hrest]
    rfl

/-! ## What is written -/

/-- How the pieces of a region are written: with blanks behind markup at the end, and then an empty
line of code; or with the last piece of code standing open, and without the blanks behind it. -/
inductive Ends : Alternation → Alternation → Text → Prop
  | front {t gap : Text} : allBlank t = false → allBlank gap = true →
    Ends ⟨t, []⟩ ⟨t ++ gap, []⟩ ['\n']
  | markup {front code t gap : Text} {turns : List (Text × Text)} : allBlank t = false →
    allBlank gap = true →
    Ends ⟨front, turns ++ [(code, t)]⟩ ⟨front, turns ++ [(code, t ++ gap)]⟩ ['\n']
  | code {front code t : Text} {turns : List (Text × Text)} : allBlank t = true →
    Ends ⟨front, turns ++ [(code, t)]⟩ ⟨front, turns⟩ (' ' :: (code ++ ['\n']))

end Alternation

variable {w v : Writer} {calls : List Call} {before : Text} {a : Alternation}

/-- Behind such pieces, code is entered in one of these ways. -/
theorem exists_ends (hv : v.mode = .markup) (hindent : allBlank v.indent = true)
    (hcode : ∀ turn ∈ a.turns, ∃ c ∈ turn.1.getLast?, isBlank c = false)
    (hfront : a.turns = [] → allBlank a.front = false) (hlast : ¬ closeTag <:+ trimEnd a.last)
    (htext : v.text = before ++ closeTag ++ ('\n' :: a.text)) :
    ∃ b code, a.Ends b code
      ∧ v.enterCode.text = before ++ closeTag ++ ('\n' :: b.text) ++ (openTag ++ code) := by
  have blank {lineEnd : Text} (h : lineEnd = [] ∨ lineEnd = ['\n']) :
      allBlank (lineEnd ++ v.indent) = true := by
    rcases h with rfl | rfl <;> simp [hindent, show isBlank '\n' = true from rfl]
  obtain ⟨front, turns⟩ := a
  rcases List.eq_nil_or_concat turns with rfl | ⟨turns, ⟨code, t⟩, rfl⟩
  · -- the region is one piece of markup
    have hsplit : v.text = (before ++ closeTag ++ ['\n']) ++ front := by
      simpa [Alternation.text] using htext
    obtain ⟨lineEnd, hlineEnd, henter⟩ := enterCode_of_markup hv (by simp) (hfront rfl) hlast hsplit
    refine ⟨_, _, .front (hfront rfl) (blank hlineEnd), ?_⟩
    rw [henter, hsplit]
    simp [Alternation.text]
  · rw [List.concat_eq_append] at hcode hlast htext ⊢
    have hsplit : v.text = (before ++ closeTag ++ ['\n'] ++ front ++ turns.flatMap turnText)
        ++ (openTag ++ ' ' :: code ++ ' ' :: closeTag) ++ t := by
      simpa [Alternation.text, turnText] using htext
    cases ht : allBlank t with
    | true =>
      have henter := enterCode_of_inlineCode hv (hcode (code, t) (by simp)) ht hsplit
      refine ⟨_, _, .code ht, ?_⟩
      rw [henter]
      simp [Alternation.text]
    | false =>
      have hclosed : ∀ c ∈ ((before ++ closeTag ++ ['\n'] ++ front ++ turns.flatMap turnText)
          ++ (openTag ++ ' ' :: code ++ ' ' :: closeTag)).getLast?, c ≠ '?' := by
        intro c hc
        obtain rfl : '>' = c := by simpa [closeTag, ← List.append_assoc] using hc
        decide
      have hend : ¬ closeTag <:+ trimEnd t := by simpa [Alternation.last] using hlast
      obtain ⟨lineEnd, hlineEnd, henter⟩ := enterCode_of_markup hv hclosed ht hend hsplit
      refine ⟨_, _, .markup ht (blank hlineEnd), ?_⟩
      rw [henter, hsplit]
      simp [Alternation.text, turnText]

/-- What a writer in code has written when it comes back to code behind a region that shows
something. -/
theorem exists_written (hw : w.mode = .code) (hindent : allBlank w.indent = true)
    (h : Pieces calls) (hshows : ∃ call ∈ calls, call.isBlankMarkup = false)
    (hcode : ∀ turn ∈ (Alternation.ofCalls calls).turns, ∃ c ∈ turn.1.getLast?, isBlank c = false)
    (hlast : ¬ closeTag <:+ trimEnd (Alternation.ofCalls calls).last) :
    ∃ (gap : Text) (a b : Alternation) (code : Text), allBlank gap = true
      ∧ Alternation.ofCalls calls = ⟨gap ++ a.front, a.turns⟩
      ∧ a.Ends b code
      ∧ (w.performAll calls).enterCode.text
        = w.text ++ w.indent ++ closeTag ++ ('\n' :: b.text) ++ (openTag ++ code) := by
  obtain ⟨gap, hgap, hcalls⟩ := Alternation.ofCalls_dropWhile calls
  have hpieces : Pieces (calls.dropWhile Call.isBlankMarkup) := fun call hc =>
    h call ((List.dropWhile_sublist _).subset hc)
  have hhead := List.head?_dropWhile_not Call.isBlankMarkup calls
  rw [← performAll_dropWhile hw, hcalls]
  rw [hcalls] at hcode hlast
  generalize hrest : calls.dropWhile Call.isBlankMarkup = rest at hpieces hhead hcode hlast ⊢
  cases rest with
  | nil =>
    obtain ⟨call, hmem, hcall⟩ := hshows
    have hskip : call.isBlankMarkup = true := List.dropWhile_eq_nil_iff.1 hrest call hmem
    exact absurd (hcall.symm.trans hskip) (by decide)
  | cons call rest =>
    have hcall : call.isBlankMarkup = false := by simpa using hhead
    have hv := performAll_of_code hpieces hcall hw
    rw [Alternation.written_ofCalls hpieces] at hv
    have hblank := Alternation.allBlank_front_ofCalls hpieces hcall
    generalize Alternation.ofCalls (call :: rest) = a at hv hblank hcode hlast ⊢
    have hlast' : ¬ closeTag <:+ trimEnd a.last := by
      refine fun hsuffix => hlast ?_
      cases hturns : a.turns.getLast? with
      | some turn => simpa [Alternation.last, hturns] using hsuffix
      | none =>
        have hfront : allBlank a.front = false := hblank (List.getLast?_eq_none_iff.1 hturns)
        simp only [Alternation.last, hturns, Option.map_none, Option.getD_none] at hsuffix ⊢
        rw [trimEnd_append_of_not_allBlank hfront]
        exact hsuffix.trans (List.suffix_append gap _)
    have hmode : (w.performAll (call :: rest)).mode = .markup := by rw [hv]
    have hvindent : (w.performAll (call :: rest)).indent = w.indent := by rw [hv]
    have htext : (w.performAll (call :: rest)).text
        = (w.text ++ w.indent) ++ closeTag ++ ('\n' :: a.text) := by
      rw [hv]
      simp
    obtain ⟨b, code, hends, henter⟩ :=
      exists_ends (a := a) hmode (hvindent ▸ hindent) hcode hblank hlast' htext
    exact ⟨gap, a, b, code, hgap, rfl, hends, henter⟩

end WidgetCompiler.Php.Writer
