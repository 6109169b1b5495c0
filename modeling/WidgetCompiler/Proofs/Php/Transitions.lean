import WidgetCompiler.Proofs.Php.Modes
import WidgetCompiler.Proofs.Text.Blank

/-!
# What a writer has written

Whatever is asked of a `Writer`, its text reads the way it says: each delimiter stands in its own
mode, and the mode that is reached at the end is the one that the writer keeps
(`Sound.perform`).  The calls have to leave the delimiters to the writer (`Proper`).

`enterCode` takes text back, so no step lemma can speak of the end of the text alone.  What
survives is that every beginning of a text that reads well reads well too; a `?>` that is taken
back was therefore reached in code, and code is reached again without it.

For the same reason a `<?php` that `enterCode` writes never follows a `?>` with blanks only in
between: it would have taken that one back.  `OpenedInline` says of a place that a call of
`inlineCode` wrote the delimiter there and that it was never taken back.
-/

namespace WidgetCompiler.Php

open Text

namespace Writer

/-! ## Calls that leave the delimiters to the writer -/

/-- What a call shows as markup. -/
def Call.shown : Call → Text
  | .markup t => t
  | _ => []

/-- The text that a call brings along. -/
def Call.argument : Call → Text
  | .line code => code
  | .markup t => t
  | .inlineCode code => code
  | .setIndent indent => indent
  | .blankLine => []
  | .enterCode => []
  | .leaveCode => []

/-- All that calls show as markup, in their order. -/
def shownBy (calls : List Call) : Text := calls.flatMap Call.shown

/-- The calls write no delimiters of their own, neither one by one nor by what they show in turn,
and all indentation is blank. -/
structure Proper (calls : List Call) : Prop where
  indents : ∀ indent, Call.setIndent indent ∈ calls → allBlank indent = true
  arguments : ∀ call ∈ calls, TagFree call.argument
  shown : TagFree (shownBy calls)

/-- Does what calls ask for, one after the other. -/
def performAll (w : Writer) (calls : List Call) : Writer := calls.foldl perform w

theorem performAll_concat (w : Writer) (calls : List Call) (call : Call) :
    w.performAll (calls ++ [call]) = (w.performAll calls).perform call := by
  simp [performAll]

theorem performAll_append (w : Writer) (a b : List Call) :
    w.performAll (a ++ b) = (w.performAll a).performAll b := by
  simp [performAll]

/-- A line of code behind code. -/
theorem line_of_code {w : Writer} (hw : w.mode = .code) (code : Text) :
    w.line code = { w with text := w.text ++ code ++ ['\n'] } := by
  simp [line, enterCode, hw]

theorem shownBy_concat (calls : List Call) (call : Call) :
    shownBy (calls ++ [call]) = shownBy calls ++ call.shown := by
  simp [shownBy]

theorem Proper.of_append {before rest : List Call} (h : Proper (before ++ rest)) :
    Proper before where
  indents indent hm := h.indents indent (List.mem_append_left _ hm)
  arguments call hm := h.arguments call (List.mem_append_left _ hm)
  shown := h.shown.of_infix ⟨[], shownBy rest, by simp [shownBy]⟩

/-! ## Taking a delimiter back -/

/-- What is taken back is a `?>` with the blanks around it. -/
theorem takeBackClose?_eq_some {t kept : Text} (h : takeBackClose? t = some kept) :
    ∃ gap rest, t = kept ++ gap ++ closeTag ++ rest ∧ allBlank gap = true
      ∧ allBlank rest = true := by
  simp only [takeBackClose?] at h
  split at h
  case isFalse => simp at h
  case isTrue hend =>
    obtain ⟨front, hfront⟩ := endsWith_iff.1 hend
    rw [← hfront, List.length_append, Nat.add_sub_cancel, List.take_left] at h
    obtain ⟨gap, hgap, hkept⟩ := exists_trimEnd front
    obtain ⟨rest, hrest, ht⟩ := exists_trimEnd t
    refine ⟨gap, rest, ?_, hgap, hrest⟩
    rw [← Option.some.inj h, ← hkept, hfront, ← ht]

theorem takeBackClose?_eq_none {t : Text} (h : takeBackClose? t = none) :
    ¬ closeTag <:+ trimEnd t := by
  intro hend
  simp [takeBackClose?, endsWith_iff.2 hend] at h

theorem takeBackClose?_prefix {t kept : Text} (h : takeBackClose? t = some kept) : kept <+: t := by
  obtain ⟨gap, rest, ht, -⟩ := takeBackClose?_eq_some h
  exact ⟨gap ++ closeTag ++ rest, by rw [ht]; simp⟩

/-- Blanks make no delimiter with what stands before them. -/
theorem seamless_of_allBlank {s t : Text} (h : allBlank t = true) : Seamless s t := by
  refine Seamless.of_head fun c hc => ?_
  have hblank := isBlank_of_mem h (List.mem_of_mem_head? hc)
  intro hm
  have : ∀ d ∈ ("?ph>" : Text), isBlank d = false := by decide
  exact Bool.false_ne_true ((this c hm).symm.trans hblank)

/-- Code is reached where a `?>` was taken back from. -/
theorem reads_takeBack {t kept : Text} {m : Mode} (ht : Reads .code t m)
    (h : takeBackClose? t = some kept) : Reads .code kept .code := by
  obtain ⟨gap, rest, hsplit, hgap, -⟩ := takeBackClose?_eq_some h
  have hcode : modeAfter .code (kept ++ gap) = .code := ht.closes _ _ hsplit
  rw [modeAfter_append (seamless_of_allBlank hgap),
    modeAfter_of_tagFree (tagFree_of_allBlank hgap)] at hcode
  have := ht.of_prefix ( takeBackClose?_prefix h)
  rwa [hcode] at this

/-! ## One step -/

/-- The text of a writer reads the way the writer says, after calls that showed the given text as
markup.  Where code has been reached a line ends; in markup the text since the last delimiter is
the end of what was shown. -/
structure Sound (w : Writer) (shown : Text) : Prop where
  reads : Reads .code w.text w.mode
  indent : allBlank w.indent = true
  lineEnd : w.mode = .code → ∀ c ∈ w.text.getLast?, c = '\n'
  literal : w.mode = .markup → ∃ front l, w.text = front ++ l
    ∧ (∃ c ∈ front.getLast?, c = '>' ∨ c = '\n') ∧ l <:+ shown

theorem Sound.start {indent : Text} (h : allBlank indent = true) : Sound (start indent) [] where
  reads := reads_of_tagFree (tagFree_of_not_mem (by simp [Writer.start]))
  indent := h
  lineEnd _ c hc := by simp [Writer.start] at hc
  literal h := by simp [Writer.start] at h

namespace Sound

variable {w : Writer} {shown : Text}

/-- The line end that `enterCode` writes if there is none. -/
theorem allBlank_lineEnd (b : Bool) : allBlank (if b then [] else ['\n']) = true := by
  cases b <;> rfl

theorem enterCode (h : Sound w shown) : Sound w.enterCode shown := by
  unfold Writer.enterCode
  split
  case h_1 => exact h
  case h_2 hmode =>
    have hreads : Reads .code w.text .markup := hmode ▸ h.reads
    have hline : Reads .code ['\n'] .code := reads_of_tagFree (tagFree_of_not_mem (by decide))
    split
    case h_1 kept hkept =>
      refine ⟨?_, h.indent, fun _ c hc => ?_, fun hm => by simp at hm⟩
      · exact (reads_takeBack hreads hkept).append hline (seamless_of_allBlank rfl)
      · simpa using hc.symm
    case h_2 =>
      refine ⟨?_, h.indent, fun _ c hc => ?_, fun hm => by simp at hm⟩
      · have hend := allBlank_lineEnd (w.text.isEmpty || w.text.getLast? = some '\n')
        have hblank (t : Text) (ht : allBlank t = true) : Reads .markup t .markup :=
          reads_of_tagFree (tagFree_of_allBlank ht)
        exact (((hreads.append (hblank _ hend) (seamless_of_allBlank hend)).append
          (hblank _ h.indent) (seamless_of_allBlank h.indent)).append reads_openTag
          (by simpa using Seamless.openTag (t := []))).append hline (seamless_of_allBlank rfl)
      · simpa using hc.symm

theorem leaveCode (h : Sound w shown) : Sound w.leaveCode shown := by
  unfold Writer.leaveCode
  split
  case h_1 => exact h
  case h_2 hmode =>
    have hreads : Reads .code w.text .code := hmode ▸ h.reads
    have hindent : Reads .code w.indent .code := reads_of_tagFree (tagFree_of_allBlank h.indent)
    have hclose : Seamless (w.text ++ w.indent) closeTag := by
      refine Seamless.of_last fun c hc => ?_
      have hblank : isBlank c = true := by
        rw [List.getLast?_append] at hc
        cases hi : w.indent.getLast? with
        | none =>
          rw [hi, Option.none_or] at hc
          rw [h.lineEnd hmode c hc]
          decide
        | some d =>
          obtain rfl : d = c := by simpa [hi] using hc
          exact isBlank_of_mem h.indent (List.mem_of_mem_getLast? hi)
      intro hm
      have : ∀ d ∈ ("<?ph" : Text), isBlank d = false := by decide
      exact Bool.false_ne_true ((this c hm).symm.trans hblank)
    refine ⟨?_, h.indent, fun hm => by simp at hm, fun _ => ⟨_, [], (List.append_nil _).symm, ?_, List.nil_suffix⟩⟩
    · exact ((hreads.append hindent (seamless_of_allBlank h.indent)).append reads_closeTag
        hclose).append (reads_of_tagFree (tagFree_of_not_mem (by decide)))
        (seamless_of_allBlank rfl)
    · exact ⟨'\n', by simp, .inr rfl⟩

/-- Behind the end of a line nothing makes a delimiter with what stands before. -/
theorem seamless_of_lineEnd {s t : Text} (h : ∀ c ∈ s.getLast?, c = '\n') : Seamless s t := by
  refine Seamless.of_last fun c hc => ?_
  rw [h c hc]
  decide

theorem line (h : Sound w shown) {code : Text} (hc : TagFree code) :
    Sound (w.line code) shown := by
  have hv := h.enterCode
  have hmode : w.enterCode.mode = .code := mode_enterCode w
  have hreads : Reads .code w.enterCode.text .code := hmode ▸ hv.reads
  unfold Writer.line
  refine ⟨?_, hv.indent, fun _ c hc' => ?_, fun hm => ?_⟩
  · rw [show (⟨w.enterCode.text ++ code ++ ['\n'], w.enterCode.mode, w.enterCode.indent⟩ :
      Writer).mode = .code from hmode]
    exact (hreads.append (reads_of_tagFree hc) (seamless_of_lineEnd (hv.lineEnd hmode))).append
      (reads_of_tagFree (tagFree_of_not_mem (by decide))) (seamless_of_allBlank rfl)
  · simpa using hc'.symm
  · exact absurd (hmode.symm.trans hm) (by decide)

/-- Further markup makes no delimiter with the markup before it. -/
theorem seamless_markup (h : Sound w shown) (hmode : w.mode = .markup) {t : Text}
    (ht : TagFree (shown ++ t)) : Seamless w.text t := by
  obtain ⟨front, l, hfront, ⟨d, hd, hd'⟩, hl⟩ := h.literal hmode
  have hlast : ∀ c ∈ front.getLast?, c = '>' ∨ c = '\n' := by
    intro c hc
    obtain rfl : d = c := Option.mem_unique hd hc
    exact hd'
  rw [hfront]
  refine ⟨apart_of_joined ?_ hl ht.lacks_openTag, apart_of_joined ?_ hl ht.closing⟩
  · intro c hc
    rcases hlast c hc with rfl | rfl <;> decide
  · intro c hc
    rcases hlast c hc with rfl | rfl <;> decide

theorem markup (h : Sound w shown) {t : Text} (ht : TagFree (shown ++ t)) :
    Sound (w.markup t) (shown ++ t) := by
  unfold Writer.markup
  split
  case isTrue hskip =>
    refine ⟨h.reads, h.indent, h.lineEnd, fun hm => ?_⟩
    -- only an empty text is passed over in markup
    obtain rfl : t = [] := by simpa [hm] using hskip
    rw [List.append_nil]
    exact h.literal hm
  case isFalse =>
    have hv := h.leaveCode
    have hmode : w.leaveCode.mode = .markup := mode_leaveCode w
    obtain ⟨front, l, hfront, hlast, hl⟩ := hv.literal hmode
    have ht' : TagFree t := ht.of_infix ⟨shown, [], by simp⟩
    refine ⟨hv.reads.append ?_ (hv.seamless_markup hmode ht), hv.indent, fun hm => ?_, fun _ => ?_⟩
    · exact hmode ▸ reads_of_tagFree ht'
    · exact absurd (hmode.symm.trans hm) (by decide)
    · refine ⟨front, l ++ t, ?_, hlast, ?_⟩
      · simp only [hfront, List.append_assoc]
      · obtain ⟨x, rfl⟩ := hl
        exact ⟨x, by simp⟩

theorem inlineCode (h : Sound w shown) {code : Text} (hc : TagFree code) :
    Sound (w.inlineCode code) shown := by
  have hv := h.leaveCode
  have hmode : w.leaveCode.mode = .markup := mode_leaveCode w
  have hreads : Reads .code w.leaveCode.text .markup := hmode ▸ hv.reads
  have hspace : Reads .code [' '] .code := reads_of_tagFree (tagFree_of_not_mem (by decide))
  have hpiece : Reads .markup (openTag ++ [' '] ++ code ++ [' '] ++ closeTag) .markup :=
    (((reads_openTag.append hspace (seamless_of_allBlank rfl)).append (reads_of_tagFree hc)
      (Seamless.of_concat (by decide))).append hspace (seamless_of_allBlank rfl)).append
      reads_closeTag (Seamless.of_concat (by decide))
  unfold Writer.inlineCode
  refine ⟨?_, hv.indent, fun hm => ?_, fun _ => ⟨_, [], (List.append_nil _).symm, ?_,
    List.nil_suffix⟩⟩
  · have := hreads.append hpiece (by simpa using Seamless.openTag)
    simpa [hmode] using this
  · exact absurd (hmode.symm.trans hm) (by decide)
  · refine ⟨'>', ?_, .inl rfl⟩
    rw [List.getLast?_append_of_ne_nil _ (by simp)]
    rfl

/-- Every call keeps the text of a writer in step with its mode. -/
theorem perform (h : Sound w shown) {call : Call}
    (hindent : ∀ indent, call = .setIndent indent → allBlank indent = true)
    (hargument : TagFree call.argument) (hshown : TagFree (shown ++ call.shown)) :
    Sound (w.perform call) (shown ++ call.shown) := by
  cases call with
  | markup t => exact h.markup hshown
  | line code => simpa [Call.shown, Writer.perform] using h.line (show TagFree code from hargument)
  | blankLine => simpa [Call.shown, Writer.perform, Writer.blankLine] using h.line (tagFree_of_not_mem (List.not_mem_nil))
  | inlineCode code => simpa [Call.shown, Writer.perform] using h.inlineCode (show TagFree code from hargument)
  | enterCode => simpa [Call.shown, Writer.perform] using h.enterCode
  | leaveCode => simpa [Call.shown, Writer.perform] using h.leaveCode
  | setIndent indent =>
    simp only [Call.shown, List.append_nil]
    exact ⟨h.reads, hindent indent rfl, h.lineEnd, h.literal⟩

/-- So does every run of proper calls. -/
theorem performAll {indent : Text} (hindent : allBlank indent = true) {calls : List Call}
    (h : Proper calls) : Sound ((Writer.start indent).performAll calls) (shownBy calls) := by
  induction calls using List.reverseRecOn with
  | nil => exact Sound.start hindent
  | append_singleton calls call ih =>
    rw [performAll_concat, shownBy_concat]
    refine (ih h.of_append).perform (fun i hi => h.indents i ?_) (h.arguments call (by simp)) ?_
    · simp [hi]
    · simpa [shownBy_concat] using h.shown

end Sound

/-! ## Who wrote an opening delimiter -/

/-- The `<?php` behind `front` was written by a call of `inlineCode`, which found `front` before
it, and it has stood there ever since. -/
def OpenedInline (w : Writer) (calls : List Call) (front : Text) : Prop :=
  ∃ earlier code later, calls = earlier ++ .inlineCode code :: later
    ∧ (w.performAll earlier).leaveCode.text = front
    ∧ ∀ more, more <+: later →
      front ++ openTag <+: (w.performAll (earlier ++ .inlineCode code :: more)).text

/-- Only blanks follow the last `?>` in the text. -/
def EndsClosed (front : Text) : Prop :=
  ∃ a gap, front = a ++ closeTag ++ gap ∧ allBlank gap = true

theorem EndsClosed.suffix_trimEnd {front : Text} (h : EndsClosed front) :
    closeTag <:+ trimEnd front := by
  obtain ⟨a, gap, rfl, hgap⟩ := h
  rw [trimEnd_append_of_allBlank hgap]
  have : trimEnd (a ++ closeTag) = a ++ closeTag :=
    trimEnd_of_getLast? (c := '>') (by simp [closeTag]) (by decide)
  rw [this]
  exact List.suffix_append _ _

section Opened

variable {w : Writer} {shown front t : Text}

/-- Entering code writes no `<?php` behind a `?>`, as it takes the `?>` back instead. -/
theorem opened_enterCode (hindent : allBlank w.indent = true) (hclosed : EndsClosed front)
    (hp : front ++ openTag <+: w.enterCode.text) : front ++ openTag <+: w.text := by
  have hline : Lacks openTag ['\n'] := lacks_of_not_mem (c := 'p') (by decide) (by decide)
  unfold Writer.enterCode at hp
  split at hp
  case h_1 => exact hp
  case h_2 =>
    split at hp
    case h_1 kept hkept =>
      have hseam : Seamless kept ['\n'] := seamless_of_allBlank rfl
      exact (prefix_of_prefix_append hseam.opening hline hp).trans ( takeBackClose?_prefix hkept)
    case h_2 hnone =>
      have hpadding : ∃ gap, allBlank gap = true ∧
          front ++ openTag <+: w.text ++ gap ++ openTag := by
        refine ⟨_ ++ w.indent, ?_, prefix_of_prefix_append (t := ['\n'])
          (seamless_of_allBlank rfl).opening hline (by simpa only [List.append_assoc] using hp)⟩
        rw [allBlank_append, Sound.allBlank_lineEnd, hindent]
        rfl
      obtain ⟨gap, hgap, b, hb⟩ := hpadding
      have hseam : Seamless (w.text ++ gap) openTag := by simpa using Seamless.openTag (t := [])
      rcases places_append hseam.opening hb.symm with ⟨b', hb', -⟩ | ⟨a', hfront, ha⟩
      · exact prefix_of_prefix_append (seamless_of_allBlank hgap).opening
          (tagFree_of_allBlank hgap).lacks_openTag ⟨b', hb'.symm⟩
      · -- this is the delimiter that was just written; but then one would have been taken back
        obtain rfl := eq_nil_of_eq_append ha
        have := hclosed.suffix_trimEnd
        rw [hfront, List.append_nil, trimEnd_append_of_allBlank hgap] at this
        exact absurd this (takeBackClose?_eq_none hnone)

theorem opened_leaveCode (h : Sound w shown) (hp : front ++ openTag <+: w.leaveCode.text) :
    front ++ openTag <+: w.text := by
  unfold Writer.leaveCode at hp
  split at hp
  case h_1 => exact hp
  case h_2 hmode =>
    refine prefix_of_prefix_append (t := w.indent ++ closeTag ++ ['\n'])
      (Sound.seamless_of_lineEnd (h.lineEnd hmode)).opening ?_ (by simpa using hp)
    refine lacks_of_not_mem (c := 'p') (by decide) ?_
    have : 'p' ∉ w.indent := not_mem_of_allBlank_of_isBlank h.indent (by decide)
    simp [this, closeTag]

/-- One call adds no `<?php` behind a `?>`, unless it is a call of `inlineCode`. -/
theorem opened_perform (h : Sound w shown) {call : Call} (hargument : TagFree call.argument)
    (hshown : TagFree (shown ++ call.shown)) (hclosed : EndsClosed front)
    (hp : front ++ openTag <+: (w.perform call).text) :
    front ++ openTag <+: w.text ∨ ∃ code, call = .inlineCode code ∧ w.leaveCode.text = front := by
  have hline (code : Text) (hcode : TagFree code) (hp : front ++ openTag <+: (w.line code).text) :
      front ++ openTag <+: w.text := by
    refine opened_enterCode h.indent hclosed (prefix_of_prefix_append (t := code ++ ['\n'])
      (Sound.seamless_of_lineEnd (h.enterCode.lineEnd (mode_enterCode w))).opening ?_
      (by simpa [Writer.line] using hp))
    exact hcode.lacks_openTag.append (lacks_of_not_mem (c := 'p') (by decide) (by decide))
      (seamless_of_allBlank rfl).opening
  cases call with
  | line code => exact .inl (hline code hargument hp)
  | blankLine => exact .inl (hline [] (tagFree_of_not_mem List.not_mem_nil) hp)
  | enterCode => exact .inl (opened_enterCode h.indent hclosed hp)
  | leaveCode => exact .inl (opened_leaveCode h hp)
  | setIndent indent => exact .inl hp
  | markup t =>
    simp only [Writer.perform, Writer.markup] at hp
    split at hp
    case isTrue => exact .inl hp
    case isFalse =>
      refine .inl (opened_leaveCode h (prefix_of_prefix_append ?_ ?_ hp))
      · exact (h.leaveCode.seamless_markup (mode_leaveCode w) hshown).opening
      · exact (hshown.of_infix ⟨shown, [], by simp [Call.shown]⟩).lacks_openTag
  | inlineCode code =>
    have hspace : Lacks openTag [' '] := lacks_of_not_mem (c := 'p') (by decide) (by decide)
    have hrest : Lacks openTag ([' '] ++ code ++ ([' '] ++ closeTag)) := by
      refine (hspace.append hargument.lacks_openTag ?_).append
        (lacks_of_not_mem (c := 'p') (by decide) (by decide)) ?_
      · exact apart_of_last (by decide)
      · exact apart_of_head (by decide)
    have hfront : front ++ openTag <+: w.leaveCode.text ++ openTag :=
      prefix_of_prefix_append (t := [' '] ++ code ++ ([' '] ++ closeTag))
        (apart_of_head (by simp [openTag])) hrest
        (by simpa [Writer.perform, Writer.inlineCode] using hp)
    obtain ⟨b, hb⟩ := hfront
    have hseam : Seamless w.leaveCode.text openTag := by simpa using Seamless.openTag (t := [])
    rcases places_append hseam.opening hb.symm with ⟨b', hb', -⟩ | ⟨a', hfront, ha⟩
    · exact .inl (opened_leaveCode h ⟨b', hb'.symm⟩)
    · obtain rfl := eq_nil_of_eq_append ha
      exact .inr ⟨code, rfl, by rw [hfront, List.append_nil]⟩

end Opened

/-- Over a whole run, only calls of `inlineCode` write a `<?php` behind a `?>`. -/
theorem openedInline_of_prefix {indent : Text} (hindent : allBlank indent = true)
    {calls : List Call} (h : Proper calls) {front : Text} (hclosed : EndsClosed front)
    (hp : front ++ openTag <+: ((start indent).performAll calls).text) :
    OpenedInline (start indent) calls front := by
  induction calls using List.reverseRecOn with
  | nil => simp [performAll, start, openTag] at hp
  | append_singleton calls call ih =>
    have hp' := hp
    rw [performAll_concat] at hp'
    have hshown : TagFree (shownBy calls ++ call.shown) := by
      simpa [shownBy_concat] using h.shown
    rcases opened_perform (Sound.performAll hindent h.of_append) (h.arguments call (by simp))
      hshown hclosed hp' with hold | ⟨code, rfl, hfront⟩
    · obtain ⟨earlier, code, later, hcalls, htext, hsince⟩ := ih h.of_append hold
      refine ⟨earlier, code, later ++ [call], by simp [hcalls], htext, fun more hmore => ?_⟩
      rcases List.prefix_concat_iff.1 hmore with rfl | hmore
      · simpa [hcalls] using hp
      · exact hsince more hmore
    · refine ⟨calls, code, [], rfl, hfront, fun more hmore => ?_⟩
      rw [List.prefix_nil.1 hmore]
      exact hp

/-! ## Whole runs -/

/-- Whatever proper calls are made, after each of them the text of the writer reads the way the
writer says, with each delimiter in its own mode.  The finished text reads so as well and ends in
code, and wherever a `<?php` follows a `?>` with blanks only in between, a call of `inlineCode`
wrote it. -/
theorem reads_performAll {indent : Text} (hindent : allBlank indent = true) {calls : List Call}
    (h : Proper calls) {before : List Call} (hbefore : before <+: calls) :
    let w := (start indent).performAll before
    Reads .code w.text w.mode ∧ Reads .code w.finish .code ∧
      ∀ a gap b, w.finish = a ++ closeTag ++ gap ++ openTag ++ b → allBlank gap = true →
        OpenedInline (start indent) before (a ++ closeTag ++ gap) := by
  obtain ⟨rest, rfl⟩ := hbefore
  have hs := Sound.performAll hindent h.of_append
  refine ⟨hs.reads, ?_, fun a gap b hfinish hgap => ?_⟩
  · have := hs.enterCode.reads
    rwa [mode_enterCode] at this
  · have hclosed : EndsClosed (a ++ closeTag ++ gap) := ⟨a, gap, rfl, hgap⟩
    exact openedInline_of_prefix hindent h.of_append hclosed
      (opened_enterCode hs.indent hclosed ⟨b, hfinish.symm⟩)

/-- A page with code between its markup, up to the second of two pieces of code in a row. -/
theorem reads_performAll_page :
    let calls : List Call :=
      [.line "$x = 1;", .setIndent "\t", .markup "<p>", .inlineCode "echo $x;", .markup "<",
        .markup " \n", .inlineCode "if ($x) :", .inlineCode "endif;", .markup "?", .enterCode,
        .blankLine, .leaveCode, .markup "</p>"]
    let before := calls.take 8
    let w := (start "  ").performAll before
    allBlank ("  " : Text) = true ∧ Proper calls ∧ before <+: calls ∧
    Reads .code w.text w.mode ∧ Reads .code w.finish .code ∧
      ∀ a gap b, w.finish = a ++ closeTag ++ gap ++ openTag ++ b → allBlank gap = true →
        OpenedInline (start "  ") before (a ++ closeTag ++ gap) := by
  intro calls before w
  have hproper : Proper calls := by
    refine ⟨fun indent h => ?_, ?_, ?_⟩
    · obtain rfl : indent = "\t" := by simpa [calls] using h
      rfl
    · decide
    · decide
  have hbefore : before <+: calls := List.take_prefix 8 calls
  exact ⟨rfl, hproper, hbefore, reads_performAll rfl hproper hbefore⟩

end Writer

end WidgetCompiler.Php
