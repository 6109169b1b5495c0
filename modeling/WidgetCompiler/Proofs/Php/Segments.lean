import WidgetCompiler.Proofs.Php.Alternation

/-!
# A region cut at its delimiters

Whoever looks at a text without reading its code can still cut it at every `?>` and every `<?php`.
`segments` does so, and calls a piece markup or code by the delimiter before it.

Where no piece of markup or code in a region has a delimiter in it, the segments of what is written
are the pieces of the region, its `Alternation`: no piece is lost, doubled or moved.  Only blanks at
the start of the first piece of markup and at the end of the last one differ (`says_region`).
-/

namespace WidgetCompiler.Php

open Text

/-! ## Cutting -/

/-- A piece of a text between two delimiters. -/
structure Segment where
  /-- What the delimiter before the piece leads to. -/
  mode : Mode
  text : Text
deriving DecidableEq, Repr

/-- The segments with a character in front of the first one. -/
def Segment.push (c : Char) : List Segment → List Segment
  | [] => []
  | s :: ss => { s with text := c :: s.text } :: ss

/-- The text cut at every `?>` and every `<?php`, wherever they stand; the first piece is what the
given mode says. -/
def segments : Mode → Text → List Segment
  | m, [] => [⟨m, []⟩]
  | m, '?' :: '>' :: s => ⟨m, []⟩ :: segments .markup s
  | m, '<' :: '?' :: 'p' :: 'h' :: 'p' :: s => ⟨m, []⟩ :: segments .code s
  | m, c :: s => Segment.push c (segments m s)

/-- A text without delimiters in it is a part of the first segment, if none comes about where it
meets what follows. -/
theorem segments_append {m : Mode} {t u s : Text} {rest : List Segment} (ht : TagFree t)
    (hs : segments m s = ⟨m, u⟩ :: rest) (hclose : ∀ r, s ≠ '>' :: r)
    (hopen : ∀ r, s ≠ '?' :: 'p' :: 'h' :: 'p' :: r) :
    segments m (t ++ s) = ⟨m, t ++ u⟩ :: rest := by
  induction t with
  | nil => exact hs
  | cons c t ih =>
    rw [List.cons_append, segments, ih (ht.of_infix ⟨[c], [], by simp⟩)]
    · rfl
    · rintro r rfl hr
      cases t with
      | nil => exact hclose r hr
      | cons d t =>
        obtain ⟨rfl, -⟩ := List.cons.inj hr
        exact ht.closing ⟨[], t, rfl⟩
    · rintro r rfl hr
      cases t with
      | nil => exact hopen r hr
      | cons d t =>
        obtain ⟨rfl, -⟩ := List.cons.inj hr
        exact ht.opening ⟨[], t, rfl⟩

theorem segments_closeTag {m : Mode} {t : Text} (ht : TagFree t) (s : Text) :
    segments m (t ++ (closeTag ++ s)) = ⟨m, t⟩ :: segments .markup s := by
  have := segments_append ht (s := closeTag ++ s) (m := m) (u := []) rfl (by simp [closeTag])
    (by simp [closeTag])
  rwa [List.append_nil] at this

theorem segments_openTag {m : Mode} {t : Text} (ht : TagFree t) (s : Text) :
    segments m (t ++ (openTag ++ s)) = ⟨m, t⟩ :: segments .code s := by
  have := segments_append ht (s := openTag ++ s) (m := m) (u := []) rfl (by simp [openTag])
    (by simp [openTag])
  rwa [List.append_nil] at this

theorem segments_of_tagFree {m : Mode} {t : Text} (ht : TagFree t) : segments m t = [⟨m, t⟩] := by
  have := segments_append ht (s := []) (m := m) (u := []) rfl (by simp) (by simp)
  rwa [List.append_nil] at this

/-! ## What the segments say -/

/-- What a segment says, if it says something: markup all that stands there, and code what is left
without the blanks around it. -/
def Segment.said? (s : Segment) : Option Segment :=
  if s.mode = .markup then some s
  else if allBlank s.text then none
  else some { s with text := trim s.text }

/-- The segments with the first one trimmed if it is markup, and left out if nothing is left. -/
def trimFirst (f : Text → Text) : List Segment → List Segment
  | [] => []
  | s :: ss =>
    if s.mode = .code then s :: ss
    else if allBlank s.text then ss
    else { s with text := f s.text } :: ss

/-- What the segments say, without the blanks at the start of the first piece of markup and at the
end of the last one. -/
def settle (ss : List Segment) : List Segment :=
  (trimFirst trimEnd (trimFirst trimStart (ss.filterMap Segment.said?)).reverse).reverse

section Settle

variable {t u c gap : Text} {ss ss' : List Segment}

theorem settle_congr (h : ss.filterMap Segment.said? = ss'.filterMap Segment.said?) :
    settle ss = settle ss' := by
  rw [settle, h, settle]

theorem said?_markup (t : Text) : Segment.said? ⟨.markup, t⟩ = some ⟨.markup, t⟩ := rfl

theorem said?_blank (h : allBlank t = true) : Segment.said? ⟨.code, t⟩ = none := by
  simp [Segment.said?, h]

/-- Blanks around a piece of code say nothing. -/
theorem said?_spaced (hs : allBlank t = true) (hu : allBlank u = true) (hc : allBlank c = false) :
    Segment.said? ⟨.code, t ++ (c ++ u)⟩ = some ⟨.code, trim c⟩ := by
  simp [Segment.said?, hs, hu, hc, trim_append_left hs, trim_append_right hu]

/-- What is left of markup at an end. -/
def endPiece (f : Text → Text) (t : Text) : List Segment :=
  if allBlank t then [] else [⟨.markup, f t⟩]

theorem trimFirst_markup (f : Text → Text) (t : Text) (ss : List Segment) :
    trimFirst f (⟨.markup, t⟩ :: ss) = endPiece f t ++ ss := by
  unfold trimFirst endPiece
  cases h : allBlank t <;> simp [h]

theorem trimFirst_code (f : Text → Text) (c : Text) (ss : List Segment) :
    trimFirst f (⟨.code, c⟩ :: ss) = ⟨.code, c⟩ :: ss := by
  simp [trimFirst]

theorem endPiece_of_allBlank {f : Text → Text} (h : allBlank t = true) : endPiece f t = [] :=
  if_pos h

theorem endPiece_start (h : allBlank gap = true) :
    endPiece trimStart (gap ++ t) = endPiece trimStart t := by
  simp [endPiece, h, trimStart_append_of_allBlank h]

theorem endPiece_end (h : allBlank gap = true) :
    endPiece trimEnd (t ++ gap) = endPiece trimEnd t := by
  simp [endPiece, h, trimEnd_append_of_allBlank h]

/-- Segments that begin and end in markup. -/
theorem settle_markup (t u : Text) (ss : List Segment) :
    settle (⟨.markup, t⟩ :: (ss ++ [⟨.markup, u⟩]))
      = endPiece trimStart t ++ ss.filterMap Segment.said? ++ endPiece trimEnd u := by
  have hreverse : (endPiece trimEnd u).reverse = endPiece trimEnd u := by
    unfold endPiece
    split <;> rfl
  rw [settle, List.filterMap_cons_some (said?_markup t), List.filterMap_append, trimFirst_markup,
    ← List.append_assoc, List.reverse_append]
  rw [show [Segment.mk .markup u].filterMap Segment.said? = [⟨.markup, u⟩] from rfl,
    List.reverse_singleton, List.singleton_append, trimFirst_markup, List.reverse_append,
    List.reverse_reverse, hreverse]

/-- Segments that begin in markup and end in code. -/
theorem settle_code {d : Text} (h : Segment.said? ⟨.code, c⟩ = some ⟨.code, d⟩) (t : Text)
    (ss : List Segment) :
    settle (⟨.markup, t⟩ :: (ss ++ [⟨.code, c⟩]))
      = endPiece trimStart t ++ ss.filterMap Segment.said? ++ [⟨.code, d⟩] := by
  have hlast : [Segment.mk .code c].filterMap Segment.said? = [⟨.code, d⟩] := by simp [h]
  rw [settle, List.filterMap_cons_some (said?_markup t), List.filterMap_append, trimFirst_markup,
    ← List.append_assoc, List.reverse_append, hlast, List.reverse_singleton, List.singleton_append,
    trimFirst_code, List.reverse_cons, List.reverse_reverse]

/-- A single piece of markup. -/
theorem settle_single (h : allBlank t = false) : settle [⟨.markup, t⟩] = [⟨.markup, trim t⟩] := by
  have hstart : allBlank (trimStart t) = false := by
    have := allBlank_append (s := t.takeWhile isBlank) (t := trimStart t)
    rw [trimStart_append, h, allBlank_takeWhile, Bool.true_and] at this
    exact this.symm
  have hfirst : trimFirst trimStart [⟨.markup, t⟩] = [⟨.markup, trimStart t⟩] := by
    rw [trimFirst_markup, endPiece, h]
    rfl
  rw [settle, show [Segment.mk .markup t].filterMap Segment.said? = [⟨.markup, t⟩] from rfl, hfirst,
    List.reverse_singleton, trimFirst_markup, endPiece, hstart]
  rfl

end Settle

/-! ## Turns -/

namespace Writer

/-- The segments of pieces in turns. -/
def turnSegments (turns : List (Text × Text)) : List Segment :=
  turns.flatMap fun turn => [⟨.code, turn.1⟩, ⟨.markup, turn.2⟩]

namespace Alternation

/-- The pieces one after the other. -/
def segments (a : Alternation) : List Segment := ⟨.markup, a.front⟩ :: turnSegments a.turns

/-- No piece has a delimiter in it, and each piece of code ends in something that is not blank. -/
structure Proper (a : Alternation) : Prop where
  front : TagFree a.front
  code : ∀ turn ∈ a.turns, TagFree turn.1 ∧ ∃ c ∈ turn.1.getLast?, isBlank c = false
  markup : ∀ turn ∈ a.turns, TagFree turn.2

theorem Proper.not_suffix {a : Alternation} (h : a.Proper) : ¬ closeTag <:+ trimEnd a.last := by
  have hlast : TagFree a.last := by
    cases hturns : a.turns.getLast? with
    | none => simpa [last, hturns] using h.front
    | some turn => simpa [last, hturns] using h.markup turn (List.mem_of_getLast? hturns)
  have hprefix : trimEnd a.last <+: a.last := ⟨_, trimEnd_append _⟩
  exact fun hsuffix => hlast.closing (hsuffix.isInfix.trans hprefix.isInfix)

end Alternation

/-! ## What is written, cut -/

section

variable {t : Text} {turns : List (Text × Text)}

theorem tagFree_append_of_allBlank {s gap : Text} (hs : TagFree s) (h : allBlank gap = true) :
    TagFree (s ++ gap) := by
  refine ⟨lacks_append_of_allBlank hs.opening h, hs.closing.append (tagFree_of_allBlank h).closing
    (apart_of_head fun c hc hm => ?_)⟩
  obtain rfl : c = '>' := by simpa [closeTag] using hm
  exact absurd (isBlank_of_mem h (List.mem_of_mem_head? hc)) (by decide)

theorem tagFree_allBlank_append {s gap : Text} (hs : TagFree s) (h : allBlank gap = true) :
    TagFree (gap ++ s) := by
  refine ⟨lacks_allBlank_append h hs.opening, (tagFree_of_allBlank h).closing.append hs.closing
    (apart_of_last fun c hc hm => ?_)⟩
  obtain rfl : c = '?' := by simpa [closeTag] using hm
  exact absurd (isBlank_of_mem h (List.mem_of_mem_getLast? hc)) (by decide)

theorem tagFree_spaced {s : Text} (hs : TagFree s) : TagFree (' ' :: s ++ [' ']) :=
  tagFree_append_of_allBlank (tagFree_allBlank_append hs (show allBlank [' '] = true from rfl)) rfl

/-- The pieces of code as they are written, with a space at either side. -/
def spaced (turns : List (Text × Text)) : List (Text × Text) :=
  turns.map fun turn => (' ' :: turn.1 ++ [' '], turn.2)

/-- From markup on, each turn is cut out as it is written, up to where code begins for good. -/
theorem segments_turns (ht : TagFree t)
    (h : ∀ turn ∈ turns, TagFree turn.1 ∧ TagFree turn.2) (s : Text) :
    segments .markup (t ++ turns.flatMap turnText ++ (openTag ++ s))
      = ⟨.markup, t⟩ :: (turnSegments (spaced turns) ++ segments .code s) := by
  induction turns generalizing t with
  | nil => simpa [turnSegments, spaced] using segments_openTag ht s
  | cons turn turns ih =>
    obtain ⟨hcode, hmarkup⟩ := h turn (by simp)
    have hrest := ih hmarkup fun turn' hturn' => h turn' (by simp [hturn'])
    calc segments .markup (t ++ (turn :: turns).flatMap turnText ++ (openTag ++ s))
        = segments .markup (t ++ (openTag ++ ((' ' :: turn.1 ++ [' ']) ++ (closeTag
            ++ (turn.2 ++ turns.flatMap turnText ++ (openTag ++ s)))))) := by simp [turnText]
      _ = _ := by
        rw [segments_openTag ht, segments_closeTag (tagFree_spaced hcode), hrest]
        simp [turnSegments, spaced]

/-- Spaces around the pieces of code make no difference to what they say. -/
theorem said?_spaced_turns (turns : List (Text × Text)) :
    (turnSegments (spaced turns)).filterMap Segment.said?
      = (turnSegments turns).filterMap Segment.said? := by
  induction turns with
  | nil => rfl
  | cons turn turns ih =>
    have hsaid : Segment.said? ⟨.code, ' ' :: turn.1 ++ [' ']⟩ = Segment.said? ⟨.code, turn.1⟩ := by
      cases hblank : allBlank turn.1 with
      | true =>
        have hblank' : allBlank (' ' :: turn.1 ++ [' ']) = true := by
          rw [allBlank_append, allBlank_cons, hblank]
          rfl
        rw [said?_blank hblank, said?_blank hblank']
      | false =>
        have := said?_spaced (t := [' ']) (u := [' ']) rfl rfl hblank
        have hself := said?_spaced (t := []) (u := []) rfl rfl hblank
        rw [List.nil_append, List.append_nil] at hself
        rw [hself]
        exact this
    have hsplit (turn : Text × Text) (turns : List (Text × Text)) : turnSegments (turn :: turns)
        = [⟨.code, turn.1⟩, ⟨.markup, turn.2⟩] ++ turnSegments turns := rfl
    have hcons : spaced (turn :: turns) = (' ' :: turn.1 ++ [' '], turn.2) :: spaced turns := rfl
    rw [hcons, hsplit, hsplit, List.filterMap_append, List.filterMap_append, ih]
    refine congrArg (· ++ _) ?_
    simp only [List.filterMap_cons, hsaid]

/-- A region as it is written: from code into markup, through the turns, and back into code. -/
theorem segments_written {indent s : Text} (hindent : allBlank indent = true) (ht : TagFree t)
    (h : ∀ turn ∈ turns, TagFree turn.1 ∧ TagFree turn.2) (hs : TagFree s) :
    segments .code (indent ++ (closeTag ++ (t ++ turns.flatMap turnText ++ (openTag ++ s))))
      = ⟨.code, indent⟩ :: ⟨.markup, t⟩ :: (turnSegments (spaced turns) ++ [⟨.code, s⟩]) := by
  rw [segments_closeTag (tagFree_of_allBlank hindent), segments_turns ht h,
    segments_of_tagFree hs]

/-- Such segments are code and markup in turns. -/
theorem isChain_written (indent s : Text) :
    (⟨.code, indent⟩ :: ⟨.markup, t⟩ :: (turnSegments turns ++ [⟨.code, s⟩])
      : List Segment).IsChain fun a b => a.mode ≠ b.mode := by
  have hmarkup (t : Text) : (⟨.markup, t⟩ :: (turnSegments turns ++ [⟨.code, s⟩])
      : List Segment).IsChain fun a b => a.mode ≠ b.mode := by
    induction turns generalizing t with
    | nil => exact List.isChain_pair.2 (by simp)
    | cons turn turns ih =>
      exact List.isChain_cons_cons.2 ⟨by simp, List.isChain_cons_cons.2 ⟨by simp, ih turn.2⟩⟩
  exact List.isChain_cons_cons.2 ⟨by simp, hmarkup t⟩

/-- The last turn, with what its code says and its markup apart. -/
theorem settle_concat {c : Text} (hc : allBlank c = false) (t u : Text)
    (turns : List (Text × Text)) :
    settle (⟨.markup, t⟩ :: turnSegments (turns ++ [(c, u)]))
      = endPiece trimStart t ++ ((turnSegments turns).filterMap Segment.said? ++ [⟨.code, trim c⟩])
        ++ endPiece trimEnd u := by
  have hsplit : turnSegments (turns ++ [(c, u)])
      = turnSegments turns ++ [⟨.code, c⟩] ++ [⟨.markup, u⟩] := by
    simp [turnSegments]
  have hsaid := said?_spaced (t := []) (u := []) rfl rfl hc
  rw [List.nil_append, List.append_nil] at hsaid
  rw [hsplit, settle_markup, List.filterMap_append, List.filterMap_cons_some hsaid,
    List.filterMap_nil]

/-- Behind `before`, the text is code and markup in turns, and it says what the segments say. -/
def Says (before text : Text) (ss : List Segment) : Prop :=
  ∃ region, text = before ++ region ∧ (segments .code region).IsChain (fun a b => a.mode ≠ b.mode)
    ∧ settle (segments .code region) = settle ss

theorem says_written {before indent s : Text} {ss : List Segment} (hindent : allBlank indent = true)
    (ht : TagFree t) (h : ∀ turn ∈ turns, TagFree turn.1 ∧ TagFree turn.2) (hs : TagFree s)
    (hss : settle (⟨.markup, t⟩ :: (turnSegments (spaced turns) ++ [⟨.code, s⟩])) = settle ss) :
    Says before (before ++ (indent ++ (closeTag ++ (t ++ turns.flatMap turnText ++ (openTag ++ s)))))
      ss := by
  refine ⟨_, rfl, ?_⟩
  rw [segments_written hindent ht h hs]
  refine ⟨isChain_written _ _, Eq.trans (settle_congr ?_) hss⟩
  rw [List.filterMap_cons_none (said?_blank hindent)]

/-- Behind the last turn only a line end of code follows. -/
theorem settle_lineEnd (t : Text) (turns : List (Text × Text)) :
    settle (⟨.markup, t⟩ :: (turnSegments (spaced turns) ++ [⟨.code, ['\n']⟩]))
      = settle (⟨.markup, t⟩ :: turnSegments turns) := by
  refine settle_congr ?_
  rw [List.filterMap_cons_some (said?_markup t), List.filterMap_cons_some (said?_markup t),
    List.filterMap_append, List.filterMap_cons_none (said?_blank rfl), List.filterMap_nil,
    List.append_nil, said?_spaced_turns]

/-! ## Regions -/

theorem not_allBlank_of_getLast? {s : Text} (h : ∃ c ∈ s.getLast?, isBlank c = false) :
    allBlank s = false := by
  obtain ⟨c, hc, hblank⟩ := h
  refine Bool.eq_false_iff.2 fun hall => Bool.false_ne_true (hblank.symm.trans ?_)
  exact isBlank_of_mem hall (List.mem_of_mem_getLast? hc)

/-- The pieces as they are written, cut again: the pieces themselves, but for blanks at the ends. -/
theorem says_of_ends {before indent gap code : Text} {a b : Alternation}
    (hindent : allBlank indent = true) (hgap : allBlank gap = true)
    (hproper : (Alternation.mk (gap ++ a.front) a.turns).Proper) (hends : a.Ends b code) :
    Says before (before ++ (indent ++ (closeTag
      ++ (['\n'] ++ b.front ++ b.turns.flatMap turnText ++ (openTag ++ code)))))
      (Alternation.mk (gap ++ a.front) a.turns).segments := by
  have hnewline : allBlank ['\n'] = true := rfl
  have hfront : TagFree a.front := hproper.front.of_infix (List.suffix_append gap _).isInfix
  have hturns : ∀ turn ∈ a.turns, TagFree turn.1 ∧ TagFree turn.2 := fun turn hturn =>
    ⟨(hproper.code turn hturn).1, hproper.markup turn hturn⟩
  cases hends with
  | @front t behind ht hbehind =>
    have hss : settle (⟨.markup, ['\n'] ++ (t ++ behind)⟩
        :: (turnSegments (spaced []) ++ [⟨.code, ['\n']⟩])) = settle [⟨.markup, gap ++ t⟩] := by
      rw [settle_lineEnd]
      change settle [_] = _
      rw [settle_single (by simp [ht]), settle_single (by simp [ht]), trim_append_left hnewline,
        trim_append_right hbehind, trim_append_left hgap]
    exact says_written hindent
      (tagFree_allBlank_append (tagFree_append_of_allBlank hfront hbehind) hnewline) (by simp)
      (tagFree_of_allBlank rfl) hss
  | @markup front code t behind turns ht hbehind =>
    have hcode : allBlank code = false :=
      not_allBlank_of_getLast? (hproper.code (code, t) (by simp)).2
    have hshown : ∀ turn ∈ turns ++ [(code, t ++ behind)], TagFree turn.1 ∧ TagFree turn.2 := by
      intro turn hturn
      rcases List.mem_append.1 hturn with hturn | hturn
      · exact hturns turn (List.mem_append_left _ hturn)
      · obtain ⟨hfree, hfree'⟩ := hturns (code, t) (by simp)
        rw [List.mem_singleton.1 hturn]
        exact ⟨hfree, tagFree_append_of_allBlank hfree' hbehind⟩
    have hss : settle (⟨.markup, ['\n'] ++ front⟩
        :: (turnSegments (spaced (turns ++ [(code, t ++ behind)])) ++ [⟨.code, ['\n']⟩]))
        = settle (⟨.markup, gap ++ front⟩ :: turnSegments (turns ++ [(code, t)])) := by
      rw [settle_lineEnd, settle_concat hcode, settle_concat hcode, endPiece_end hbehind,
        endPiece_start hnewline, endPiece_start hgap]
    exact says_written hindent (tagFree_allBlank_append hfront hnewline) hshown
      (tagFree_of_allBlank rfl) hss
  | @code front code t turns ht =>
    obtain ⟨hcode, hlast⟩ := hproper.code (code, t) (by simp)
    have hnot : allBlank code = false := not_allBlank_of_getLast? hlast
    have hcut : TagFree ([' '] ++ (code ++ ['\n'])) :=
      tagFree_allBlank_append (tagFree_append_of_allBlank hcode rfl) rfl
    have hsaid : Segment.said? ⟨.code, ' ' :: (code ++ ['\n'])⟩ = some ⟨.code, trim code⟩ :=
      said?_spaced (t := [' ']) rfl rfl hnot
    have hss : settle (⟨.markup, ['\n'] ++ front⟩
        :: (turnSegments (spaced turns) ++ [⟨.code, ' ' :: (code ++ ['\n'])⟩]))
        = settle (⟨.markup, gap ++ front⟩ :: turnSegments (turns ++ [(code, t)])) := by
      rw [settle_code hsaid, said?_spaced_turns, settle_concat hnot, endPiece_start hnewline,
        endPiece_start hgap, endPiece_of_allBlank ht, List.append_nil, List.append_assoc]
    exact says_written hindent (tagFree_allBlank_append hfront hnewline)
      (fun turn hturn => hturns turn (List.mem_append_left _ hturn)) hcut hss

end

/-- A region that shows something, cut at its delimiters: markup and code in turns, and they are
what the calls ask for.  Only blanks differ, at the start of the first piece of markup and at the
end of the last one. -/
theorem says_region {w : Writer} (hw : w.mode = .code) (hindent : allBlank w.indent = true)
    {calls : List Call} (h : Pieces calls) (hshows : ∃ call ∈ calls, call.isBlankMarkup = false)
    (hproper : (Alternation.ofCalls calls).Proper) :
    Says w.text (w.performAll calls).enterCode.text (Alternation.ofCalls calls).segments := by
  obtain ⟨gap, a, b, code, hgap, hcalls, hends, htext⟩ := exists_written hw hindent h hshows
    (fun turn hturn => (hproper.code turn hturn).2) hproper.not_suffix
  rw [hcalls] at hproper ⊢
  rw [htext]
  simpa [Alternation.text] using says_of_ends hindent hgap hproper hends

end Writer

end WidgetCompiler.Php
