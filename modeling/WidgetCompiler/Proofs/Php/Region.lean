import Mathlib.Data.List.Chain
import WidgetCompiler.Proofs.Php.Scan
import WidgetCompiler.Proofs.Php.Transitions

/-!
# What a region of markup shows

A region is written by calls of `markup` and `inlineCode` only.  What it shows stands between its
pieces of code: `stretches` lists these texts.  A reader who comes to the region in code sees
exactly them, and is in code again when the writer has finished (`scan_region`).

There is one exception.  A writer that enters code behind the region takes back a `?>` at its end,
and it does so by the look of the text.  If the last call shows markup that itself ends in a `?>`,
that one is taken back, and nothing is left to lead to code.
-/

namespace WidgetCompiler.Php

open Text

/-- A reader who comes to the text in code sees the given texts in markup and is in code again
behind it, whatever follows. -/
def Scans (t : Text) (shown : List Text) : Prop :=
  ∀ s, scan .code (t ++ s) = ((scan .code s).1, shown ++ (scan .code s).2)

/-- What is to be seen of some texts: not the blanks around them, and no text without anything. -/
def visible (ts : List Text) : List Text := (ts.map trim).filter (! ·.isEmpty)

@[simp] theorem visible_nil : visible [] = [] := rfl

theorem visible_cons_of_allBlank {t : Text} {ts : List Text} (h : allBlank t = true) :
    visible (t :: ts) = visible ts := by
  simp [visible, trim_of_allBlank h]

theorem visible_append (ts us : List Text) : visible (ts ++ us) = visible ts ++ visible us := by
  simp [visible]

/-- Only the text without the blanks around it counts. -/
theorem visible_cons_congr {t u : Text} {ts us : List Text} (h : trim t = trim u)
    (hs : visible ts = visible us) : visible (t :: ts) = visible (u :: us) := by
  rw [← List.singleton_append, ← List.singleton_append (x := u), visible_append, visible_append, hs]
  simp [visible, h]

/-- Blanks before a text begin no instruction with it. -/
theorem lacks_allBlank_append {s t : Text} (hs : allBlank s = true) (ht : Lacks "<?" t) :
    Lacks "<?" (s ++ t) := by
  refine (tagFree_of_allBlank hs).opening.append ht (apart_of_last fun c hc hm => ?_)
  obtain rfl : c = '<' := by simpa using hm
  exact absurd (isBlank_of_mem hs (List.mem_of_mem_getLast? hc)) (by decide)

/-- Nor do blanks behind it. -/
theorem lacks_append_of_allBlank {s t : Text} (hs : Lacks "<?" s) (ht : allBlank t = true) :
    Lacks "<?" (s ++ t) := by
  refine hs.append (tagFree_of_allBlank ht).opening (apart_of_head fun c hc hm => ?_)
  obtain rfl : c = '?' := by simpa using hm
  exact absurd (isBlank_of_mem ht (List.mem_of_mem_head? hc)) (by decide)

namespace Writer

/-! ## Calls within a region -/

/-- Whether a call shows markup. -/
def Call.isMarkup : Call → Bool
  | .markup _ => true
  | _ => false

/-- Whether a call shows nothing but blanks. -/
def Call.isBlankMarkup : Call → Bool
  | .markup t => allBlank t
  | _ => false

theorem Call.exists_of_isMarkup {call : Call} (h : call.isMarkup = true) :
    ∃ t, call = .markup t := by
  cases call with
  | markup t => exact ⟨t, rfl⟩
  | _ => simp [isMarkup] at h

theorem Call.exists_of_isBlankMarkup {call : Call} (h : call.isBlankMarkup = true) :
    ∃ t, call = .markup t := by
  cases call with
  | markup t => exact ⟨t, rfl⟩
  | _ => simp [isBlankMarkup] at h

/-- The code of a statement can be put between markup, and it does not end in a blank. -/
structure Statement (code : Text) : Prop where
  runs : Runs code
  ends : ∃ c ∈ code.getLast?, isBlank c = false

/-- Nothing but markup and pieces of code. -/
def Pieces (calls : List Call) : Prop :=
  ∀ call ∈ calls, call.isMarkup = false → ∃ code, call = .inlineCode code

/-- Markup and pieces of code in turns. -/
structure Region (calls : List Call) : Prop where
  statements : ∀ call ∈ calls, call.isMarkup = false → ∃ code, call = .inlineCode code ∧
    Statement code
  alternates : calls.IsChain fun a b => ¬ (a.isMarkup = true ∧ b.isMarkup = true)

/-- What a call within a region writes. -/
def Call.written : Call → Text
  | .markup t => t
  | .inlineCode code => openTag ++ ' ' :: code ++ ' ' :: closeTag
  | _ => []

/-- What the calls within a region show between their pieces of code, behind some text. -/
def stretches (before : Text) : List Call → List Text
  | [] => [before]
  | .markup t :: calls => stretches (before ++ t) calls
  | .inlineCode _ :: calls => before :: stretches [] calls
  | _ :: calls => stretches before calls

namespace Region

variable {calls front rest : List Call} {call : Call}

theorem pieces (h : Region calls) : Pieces calls := fun call hc hcall =>
  (h.statements call hc hcall).imp fun _ hcode => hcode.1

theorem of_append_left (h : Region (front ++ rest)) : Region front where
  statements call hc := h.statements call (List.mem_append_left _ hc)
  alternates := (List.isChain_append.1 h.alternates).1

theorem of_append_right (h : Region (front ++ rest)) : Region rest where
  statements call hc := h.statements call (List.mem_append_right _ hc)
  alternates := (List.isChain_append.1 h.alternates).2.1

theorem tail (h : Region (call :: rest)) : Region rest where
  statements call' hc := h.statements call' (List.mem_cons_of_mem call hc)
  alternates := h.alternates.tail

/-- What precedes the markup at the end of a region is a piece of code. -/
theorem inlineCode_of_concat {t : Text} (h : Region (front ++ [.markup t])) :
    front = [] ∨ ∃ rest code, front = rest ++ [.inlineCode code] := by
  rcases List.eq_nil_or_concat front with rfl | ⟨rest, call, rfl⟩
  · exact .inl rfl
  · rw [List.concat_eq_append] at h ⊢
    have hmarkup : call.isMarkup = false := by
      have := (List.isChain_append.1 h.alternates).2.2 call (by simp) (.markup t) (by simp)
      simpa [Call.isMarkup] using this
    obtain ⟨code, rfl, -⟩ := h.statements call (by simp) hmarkup
    exact .inr ⟨rest, code, rfl⟩

/-- Which markup the last call shows makes no difference. -/
theorem concat_markup {t u : Text} (h : Region (front ++ [.markup t])) :
    Region (front ++ [.markup u]) where
  statements call hc hcall := by
    rcases List.mem_append.1 hc with hc | hc
    · exact h.statements call (List.mem_append_left _ hc) hcall
    · obtain rfl : call = .markup u := by simpa using hc
      simp [Call.isMarkup] at hcall
  alternates := by
    obtain ⟨hfront, -, hseam⟩ := List.isChain_append.1 h.alternates
    refine List.isChain_append.2 ⟨hfront, List.isChain_singleton _, fun a ha b hb => ?_⟩
    obtain rfl : .markup u = b := by simpa using hb
    exact hseam a ha (.markup t) (by simp)

theorem dropWhile (h : Region calls) (p : Call → Bool) : Region (calls.dropWhile p) := by
  obtain ⟨front, hfront⟩ := List.dropWhile_suffix (l := calls) p
  rw [← hfront] at h
  exact h.of_append_right

end Region

/-! ## What the writer writes -/

/-- In markup every call adds its piece. -/
theorem performAll_of_markup {calls : List Call} (h : Pieces calls) {w : Writer}
    (hmode : w.mode = .markup) :
    w.performAll calls = { w with text := w.text ++ calls.flatMap Call.written } := by
  induction calls generalizing w with
  | nil => simp [performAll]
  | cons call calls ih =>
    have hstep : w.perform call = { w with text := w.text ++ call.written } := by
      cases hcall : call.isMarkup with
      | true =>
        obtain ⟨t, rfl⟩ := Call.exists_of_isMarkup hcall
        by_cases ht : t = []
        · simp [perform, markup, Call.written, ht]
        · simp [perform, markup, leaveCode, Call.written, ht, hmode]
      | false =>
        obtain ⟨code, rfl⟩ := h call (by simp) hcall
        simp [perform, inlineCode, leaveCode, hmode, Call.written]
    have hrest : Pieces calls := fun c hc => h c (by simp [hc])
    have := ih (w := w.perform call) hrest (by rw [hstep]; exact hmode)
    rw [performAll, List.foldl_cons]
    rw [performAll] at this
    rw [this, hstep]
    simp

/-- In code the blanks at the beginning of a region are passed over. -/
theorem performAll_dropWhile {w : Writer} (hmode : w.mode = .code) (calls : List Call) :
    w.performAll (calls.dropWhile Call.isBlankMarkup) = w.performAll calls := by
  induction calls with
  | nil => rfl
  | cons call calls ih =>
    cases hc : call.isBlankMarkup with
    | false => rw [List.dropWhile_cons_of_neg (by simp [hc])]
    | true =>
      obtain ⟨t, rfl⟩ := Call.exists_of_isBlankMarkup hc
      have hskip : w.perform (.markup t) = w := by
        have ht : allBlank t = true := hc
        simp [perform, markup, hmode, ht]
      rw [List.dropWhile_cons_of_pos hc, ih, performAll, performAll, List.foldl_cons, hskip]

/-- Code is left before a call that shows something. -/
theorem performAll_of_code {calls : List Call} {call : Call} (h : Pieces (call :: calls))
    (hcall : call.isBlankMarkup = false) {w : Writer} (hmode : w.mode = .code) :
    w.performAll (call :: calls) = { w with
      mode := .markup
      text := w.text ++ w.indent ++ closeTag ++ ['\n']
        ++ (call :: calls).flatMap Call.written } := by
  have hstep : w.perform call = w.leaveCode.perform call := by
    cases hmarkup : call.isMarkup with
    | true =>
      obtain ⟨t, rfl⟩ := Call.exists_of_isMarkup hmarkup
      have ht : allBlank t = false := hcall
      have hne : t ≠ [] := by
        rintro rfl
        simp at ht
      simp [perform, markup, leaveCode, hmode, ht, hne]
    | false =>
      obtain ⟨code, rfl⟩ := h call (by simp) hmarkup
      simp [perform, inlineCode, leaveCode, hmode]
  calc w.performAll (call :: calls) = w.leaveCode.performAll (call :: calls) := by
        rw [performAll, List.foldl_cons, hstep]
        rfl
    _ = _ := by
        rw [performAll_of_markup h (mode_leaveCode w)]
        simp [leaveCode, hmode]

/-! ## What a reader sees -/

/-- Markup and pieces of code in turns, from the front: each piece of code, with the markup before
it if there is some. -/
theorem Region.induction {motive : (calls : List Call) → Region calls → Prop}
    (nil : ∀ h, motive [] h) (markup : ∀ t h, motive [.markup t] h)
    (code : ∀ code rest h, Statement code → (hrest : Region rest) → motive rest hrest →
      motive (.inlineCode code :: rest) h)
    (both : ∀ t code rest h, Statement code → (hrest : Region rest) → motive rest hrest →
      motive (.markup t :: .inlineCode code :: rest) h) :
    ∀ calls h, motive calls h
  | [], h => nil h
  | call :: rest, h => by
    cases hcall : call.isMarkup with
    | false =>
      obtain ⟨c, rfl, hc⟩ := h.statements call (by simp) hcall
      have hrest : Region rest := h.tail
      exact code c rest h hc hrest (Region.induction nil markup code both rest hrest)
    | true =>
      obtain ⟨t, rfl⟩ := Call.exists_of_isMarkup hcall
      match rest, h with
      | [], h => exact markup t h
      | next :: rest, h =>
        have hnext : next.isMarkup = false := by
          have := (List.isChain_cons_cons.1 h.alternates).1
          simpa [Call.isMarkup] using this
        obtain ⟨c, rfl, hc⟩ := h.statements next (by simp) hnext
        have hrest : Region rest := h.tail.tail
        exact both t c rest h hc hrest (Region.induction nil markup code both rest hrest)

section Stretches

variable {calls : List Call} {before : Text}

/-- Behind blanks, what is to be seen is what the calls show. -/
theorem visible_stretches (h : Region calls) (hb : allBlank before = true) :
    visible (stretches before calls) = visible (calls.map Call.shown) := by
  induction calls, h using Region.induction generalizing before with
  | nil => exact visible_cons_of_allBlank hb
  | markup t => exact visible_cons_congr (trim_append_left hb) rfl
  | code code rest _ _ _ ih =>
    calc visible (before :: stretches [] rest)
        = visible (stretches [] rest) := visible_cons_of_allBlank hb
      _ = visible (rest.map Call.shown) := ih rfl
      _ = visible ([] :: rest.map Call.shown) := (visible_cons_of_allBlank rfl).symm
  | both t code rest _ _ _ ih =>
    refine visible_cons_congr (trim_append_left hb) ?_
    exact (ih rfl).trans (visible_cons_of_allBlank rfl).symm

/-- Behind blanks, no instruction is shown if none is in the markup. -/
theorem lacks_of_mem_stretches (h : Region calls) (hb : allBlank before = true)
    (hl : ∀ t, .markup t ∈ calls → Lacks "<?" t) : ∀ t ∈ stretches before calls, Lacks "<?" t := by
  induction calls, h using Region.induction generalizing before with
  | nil => simpa [stretches] using (tagFree_of_allBlank hb).opening
  | markup t => simpa [stretches] using lacks_allBlank_append hb (hl t (by simp))
  | code code rest _ _ _ ih =>
    simp only [stretches, List.mem_cons, forall_eq_or_imp]
    exact ⟨(tagFree_of_allBlank hb).opening, ih rfl fun t ht => hl t (by simp [ht])⟩
  | both t code rest _ _ _ ih =>
    simp only [stretches, List.mem_cons, forall_eq_or_imp]
    exact ⟨lacks_allBlank_append hb (hl t (by simp)), ih rfl fun t ht => hl t (by simp [ht])⟩

/-- A piece of code between markup leads back to markup. -/
theorem scan_statement {code : Text} (h : Statement code) (s : Text) :
    scan .code (' ' :: code ++ ' ' :: closeTag ++ s) = scan .markup s := by
  have hspace : Runs [' '] := runs_of_allBlank rfl
  have := (hspace.append (h.runs.append hspace)) (closeTag ++ s)
  rw [scan_code_closeTag] at this
  simpa using this

/-- In markup a reader sees the stretches, and then what it sees behind the last of them. -/
theorem scan_stretches_append (h : Region calls) (hl : ∀ t ∈ stretches before calls, Lacks "<?" t)
    {tail : Text} {place : Place} {behind : List Text}
    (htail : ∀ t, Lacks "<?" t → scan .markup (t ++ tail) = (place, t :: behind)) :
    scan .markup (before ++ calls.flatMap Call.written ++ tail)
      = (place, stretches before calls ++ behind) := by
  induction calls generalizing before with
  | nil => simpa [stretches] using htail before (hl before (by simp [stretches]))
  | cons call calls ih =>
    have hrest : Region calls := h.tail
    cases hcall : call.isMarkup with
    | true =>
      obtain ⟨t, rfl⟩ := Call.exists_of_isMarkup hcall
      simpa [Call.written, stretches] using @ih (before ++ t) hrest hl
    | false =>
      obtain ⟨code, rfl, hcode⟩ := h.statements call (by simp) hcall
      have hothers := @ih [] hrest fun t ht => hl t (by simp [stretches, ht])
      have hopen := scan_markup_openTag (hl before (by simp [stretches]))
        (' ' :: code ++ ' ' :: closeTag ++ (calls.flatMap Call.written ++ tail))
      rw [scan_statement hcode, ← List.nil_append (calls.flatMap Call.written), hothers] at hopen
      simpa [Call.written, stretches] using hopen

/-- In markup a reader sees the stretches, up to where code begins for good. -/
theorem scan_stretches (h : Region calls) (hl : ∀ t ∈ stretches before calls, Lacks "<?" t)
    (s : Text) :
    scan .markup (before ++ calls.flatMap Call.written ++ (openTag ++ s))
      = ((scan .code s).1, stretches before calls ++ (scan .code s).2) :=
  scan_stretches_append h hl fun _ ht => scan_markup_openTag ht s

/-- In markup a reader stays there at the end of a region that nothing follows. -/
theorem scan_stretches_end (h : Region calls)
    (hl : ∀ t ∈ stretches before calls, Lacks "<?" t) :
    scan .markup (before ++ calls.flatMap Call.written) = (.markup, stretches before calls) := by
  have htail (t : Text) (ht : Lacks "<?" t) : scan .markup (t ++ []) = (.markup, [t]) := by
    rw [List.append_nil, scan_markup_of_lacks ht]
  simpa using scan_stretches_append h hl htail

end Stretches

/-! ## The end of a region -/

/-- A region whose last call shows markup with a `?>` at its end. -/
def EndsItself (calls : List Call) : Prop :=
  ∃ t, calls.getLast? = some (.markup t) ∧ closeTag <:+ trimEnd t

theorem takeBackClose?_append (front : Text) {gap : Text} (h : allBlank gap = true) :
    takeBackClose? (front ++ closeTag ++ gap) = some (trimEnd front) := by
  have hcontent : trimEnd (front ++ closeTag ++ gap) = front ++ closeTag := by
    rw [trimEnd_append_of_allBlank h]
    exact trimEnd_of_getLast? (c := '>') (by simp [closeTag]) (by decide)
  have hend : endsWith (front ++ closeTag) closeTag = true :=
    endsWith_iff.2 (List.suffix_append _ _)
  have hlength : (front ++ closeTag).length - closeTag.length = front.length := by simp
  simp only [takeBackClose?, hcontent, hend, if_true, hlength, List.take_left]

/-- Nothing that the last text begins with makes a `?>` with what stands before it. -/
theorem closeTag_suffix_of_append {s t : Text} (hs : ∀ c ∈ s.getLast?, c ≠ '?') (ht : t ≠ [])
    (h : closeTag <:+ s ++ t) : closeTag <:+ t := by
  rcases List.suffix_or_suffix_of_suffix h (List.suffix_append s t) with h' | ⟨r, hr⟩
  · exact h'
  · match r, hr with
    | [], hr => exact ⟨[], by rw [← hr]; rfl⟩
    | [c], hr =>
      obtain ⟨rfl, rfl⟩ : c = '?' ∧ t = ['>'] := by simpa [closeTag] using hr
      obtain ⟨front, hfront⟩ := h
      have : front ++ ['?'] = s := by
        rw [show closeTag = ['?'] ++ ['>'] from rfl, ← List.append_assoc] at hfront
        exact List.append_cancel_right hfront
      exact absurd rfl (hs '?' (by rw [← this]; simp))
    | c :: d :: r, hr => simp [closeTag, ht] at hr

/-- What stands before the last markup of a region ends in a character of its own line: the `>` of
a delimiter, or the end of the line of the first one. -/
theorem getLast?_before_markup {rest : List Call} {t : Text}
    (h : Region (rest ++ [.markup t])) (front : Text) :
    ∀ c ∈ (front ++ ['\n'] ++ rest.flatMap Call.written).getLast?, c ≠ '?' := by
  intro c hc
  rcases h.inlineCode_of_concat with rfl | ⟨rest, code, rfl⟩
  · obtain rfl : '\n' = c := by simpa using hc
    decide
  · obtain rfl : '>' = c := by
      simpa [Call.written, closeTag, ← List.append_assoc] using hc
    decide

/-! ## Entering code behind a region -/

/-- Behind a piece of code, and perhaps blanks, the delimiter that closed it is taken back. -/
theorem enterCode_of_inlineCode {v : Writer} {front code gap : Text} (hv : v.mode = .markup)
    (hcode : ∃ c ∈ code.getLast?, isBlank c = false) (hgap : allBlank gap = true)
    (htext : v.text = front ++ (openTag ++ ' ' :: code ++ ' ' :: closeTag) ++ gap) :
    v.enterCode = { v with text := front ++ (openTag ++ ' ' :: code) ++ ['\n'], mode := .code } := by
  have htake : takeBackClose? v.text = some (front ++ (openTag ++ ' ' :: code)) := by
    have hsplit : v.text = front ++ (openTag ++ ' ' :: code) ++ [' '] ++ closeTag ++ gap := by
      rw [htext]
      simp
    obtain ⟨c, hc, hblank⟩ := hcode
    have hlast : (front ++ (openTag ++ ' ' :: code)).getLast? = some c := by
      rw [List.getLast?_append, List.getLast?_append, List.getLast?_cons, Option.mem_def.1 hc]
      rfl
    rw [hsplit, takeBackClose?_append _ hgap, trimEnd_append_of_allBlank rfl,
      trimEnd_of_getLast? hlast hblank]
  simp only [Writer.enterCode, hv, htake]

/-- Behind markup that does not end in a `?>` a delimiter is written on a line of its own. -/
theorem enterCode_of_markup {v : Writer} {front t : Text} (hv : v.mode = .markup)
    (hfront : ∀ c ∈ front.getLast?, c ≠ '?') (ht : allBlank t = false)
    (hend : ¬ closeTag <:+ trimEnd t) (htext : v.text = front ++ t) :
    ∃ lineEnd : Text, (lineEnd = [] ∨ lineEnd = ['\n']) ∧ v.enterCode =
      { v with text := v.text ++ lineEnd ++ v.indent ++ openTag ++ ['\n'], mode := .code } := by
  have htake : takeBackClose? v.text = none := by
    have hnot : endsWith (trimEnd v.text) closeTag = false := by
      refine Bool.eq_false_iff.2 fun hends => hend ?_
      rw [htext, trimEnd_append_of_not_allBlank ht] at hends
      exact closeTag_suffix_of_append hfront (trimEnd_ne_nil ht) (endsWith_iff.1 hends)
    simp [takeBackClose?, hnot]
  refine ⟨if v.text.isEmpty || v.text.getLast? = some '\n' then [] else ['\n'], ?_, ?_⟩
  · split
    · exact .inl rfl
    · exact .inr rfl
  · simp only [Writer.enterCode, hv, htake]

section Finish

variable {w : Writer} {calls : List Call}

/-- A region behind code that runs. -/
structure Begins (w : Writer) : Prop where
  mode : w.mode = .code
  runs : Runs w.text
  indent : allBlank w.indent = true

namespace Begins

/-- A reader comes to the region through the code before it. -/
theorem scan_code (h : Begins w) (s : Text) :
    scan .code (w.text ++ w.indent ++ closeTag ++ s) = scan .markup s := by
  have := (h.runs.append (runs_of_allBlank h.indent)) (closeTag ++ s)
  rwa [scan_code_closeTag, ← List.append_assoc] at this

/-- The region ends in a piece of code, perhaps with blanks behind it. -/
theorem scans_inlineCode (h : Begins w) {rest : List Call} {code gap : Text}
    (hrest : Region rest) (hcode : Statement code) (hgap : allBlank gap = true)
    (hl : ∀ t, .markup t ∈ rest → Lacks "<?" t) {v : Writer}
    (hv : v.mode = .markup) (htext : v.text = w.text ++ w.indent ++ closeTag ++ ['\n']
      ++ rest.flatMap Call.written ++ (openTag ++ ' ' :: code ++ ' ' :: closeTag) ++ gap) :
    Scans v.finish (stretches ['\n'] rest) := by
  have hfinish : v.finish = w.text ++ w.indent ++ closeTag ++ ['\n'] ++ rest.flatMap Call.written
      ++ (openTag ++ ' ' :: code) ++ ['\n'] := by
    rw [finish, enterCode_of_inlineCode hv hcode.ends hgap htext]
  intro s
  have hblank : Runs ['\n'] := runs_of_allBlank rfl
  have hspace : Runs [' '] := runs_of_allBlank rfl
  have hstretches := scan_stretches hrest
    (lacks_of_mem_stretches hrest (show allBlank ['\n'] = true from rfl) hl) (' ' :: code ++ ['\n'] ++ s)
  have hcoderuns : scan .code (' ' :: code ++ ['\n'] ++ s) = scan .code s :=
    ((hspace.append hcode.runs).append hblank) s
  calc scan .code (v.finish ++ s)
      = scan .code (w.text ++ w.indent ++ closeTag ++ (['\n'] ++ rest.flatMap Call.written
          ++ (openTag ++ (' ' :: code ++ ['\n'] ++ s)))) := by rw [hfinish]; simp
    _ = _ := by rw [h.scan_code, hstretches, hcoderuns]

/-- The region ends in markup that does not end in a `?>`. -/
theorem scans_markup (h : Begins w) {rest : List Call} {t : Text}
    (hregion : Region (rest ++ [.markup t])) (hblank : allBlank t = false)
    (hend : ¬ closeTag <:+ trimEnd t)
    (hl : ∀ t', .markup t' ∈ rest ++ [.markup t] → Lacks "<?" t') {v : Writer}
    (hv : v.mode = .markup) (hindent : v.indent = w.indent)
    (htext : v.text = w.text ++ w.indent ++ closeTag ++ ['\n']
      ++ (rest ++ [Call.markup t]).flatMap Call.written) :
    ∃ gap, allBlank gap = true ∧
      Scans v.finish (stretches ['\n'] (rest ++ [.markup (t ++ gap)])) := by
  have hsplit : v.text
      = w.text ++ w.indent ++ closeTag ++ ['\n'] ++ rest.flatMap Call.written ++ t := by
    rw [htext]
    simp [Call.written]
  obtain ⟨lineEnd, hlineEnd, henter⟩ :=
    enterCode_of_markup hv (getLast?_before_markup hregion _) hblank hend hsplit
  have hfinish : v.finish = v.text ++ lineEnd ++ w.indent ++ openTag ++ ['\n'] := by
    rw [finish, henter, hindent]
  have hgap : allBlank (lineEnd ++ w.indent) = true := by
    rcases hlineEnd with rfl | rfl
    · exact h.indent
    · simpa using ⟨by decide, h.indent⟩
  refine ⟨lineEnd ++ w.indent, hgap, fun s => ?_⟩
  have hregion' : Region (rest ++ [.markup (t ++ (lineEnd ++ w.indent))]) := hregion.concat_markup
  have hl' : ∀ t', .markup t' ∈ rest ++ [.markup (t ++ (lineEnd ++ w.indent))] →
      Lacks "<?" t' := by
    intro t' ht'
    rcases List.mem_append.1 ht' with ht' | ht'
    · exact hl t' (by simp [ht'])
    · obtain rfl : t' = t ++ (lineEnd ++ w.indent) := by simpa using ht'
      exact lacks_append_of_allBlank (hl t (by simp)) hgap
  have hstretches := scan_stretches hregion'
    (lacks_of_mem_stretches hregion' (show allBlank ['\n'] = true from rfl) hl') (['\n'] ++ s)
  calc scan .code (v.finish ++ s)
      = scan .code (w.text ++ w.indent ++ closeTag ++ (['\n']
          ++ (rest ++ [Call.markup (t ++ (lineEnd ++ w.indent))]).flatMap Call.written
          ++ (openTag ++ (['\n'] ++ s)))) := by
        rw [hfinish, htext]
        simp [Call.written]
    _ = _ := by rw [h.scan_code, hstretches, runs_of_allBlank (t := ['\n']) rfl]

/-- The region ends in markup that ends in a `?>`.  What is taken back is a part of that markup, and
with it nothing is left that opens code. -/
theorem scan_closeTag (h : Begins w) {rest : List Call} {t : Text}
    (hregion : Region (rest ++ [.markup t])) (hend : closeTag <:+ trimEnd t)
    (hl : ∀ t', .markup t' ∈ rest ++ [.markup t] → Lacks "<?" t') {v : Writer}
    (hv : v.mode = .markup) (htext : v.text = w.text ++ w.indent ++ closeTag ++ ['\n']
      ++ (rest ++ [Call.markup t]).flatMap Call.written) :
    (scan .code v.finish).1 = .markup := by
  obtain ⟨u, hu⟩ := hend
  obtain ⟨gap, hgap, ht⟩ := exists_trimEnd t
  rw [← hu] at ht
  have hfinish : v.finish = trimEnd (w.text ++ w.indent ++ closeTag ++ ['\n']
      ++ rest.flatMap Call.written ++ u) ++ ['\n'] := by
    have hsplit : v.text = w.text ++ w.indent ++ closeTag ++ ['\n'] ++ rest.flatMap Call.written
        ++ u ++ closeTag ++ gap := by
      rw [htext, ht]
      simp [Call.written]
    have htake := takeBackClose?_append (w.text ++ w.indent ++ closeTag ++ ['\n']
      ++ rest.flatMap Call.written ++ u) hgap
    rw [← hsplit] at htake
    simp only [finish, Writer.enterCode, hv, htake]
  have hlu : Lacks "<?" u := Lacks.of_infix (hl t (by simp)) (by
    rw [ht]
    exact ⟨[], closeTag ++ gap, by simp⟩)
  -- it suffices that blanks and the markup up to there are what follows the first delimiter
  have hshown (gap s : Text) (hgap : allBlank gap = true) (hs : Lacks "<?" s)
      (e : v.finish = w.text ++ w.indent ++ closeTag
        ++ (gap ++ (rest ++ [Call.markup s]).flatMap Call.written)) :
      (scan .code v.finish).1 = .markup := by
    have hregion' : Region (rest ++ [.markup s]) := hregion.concat_markup
    have hl' : ∀ t', .markup t' ∈ rest ++ [.markup s] → Lacks "<?" t' := by
      intro t' ht'
      rcases List.mem_append.1 ht' with ht' | ht'
      · exact hl t' (by simp [ht'])
      · obtain rfl : t' = s := by simpa using ht'
        exact hs
    rw [e, h.scan_code, scan_stretches_end hregion' (lacks_of_mem_stretches hregion' hgap hl')]
  cases hblank : allBlank u with
  | false =>
    have hlend : Lacks "<?" (trimEnd u ++ ['\n']) := by
      refine lacks_append_of_allBlank (hlu.of_infix ?_) rfl
      exact (show trimEnd u <+: u from ⟨_, trimEnd_append u⟩).isInfix
    refine hshown ['\n'] (trimEnd u ++ ['\n']) rfl hlend ?_
    rw [hfinish, trimEnd_append_of_not_allBlank hblank]
    simp [Call.written]
  | true =>
    rw [trimEnd_append_of_allBlank hblank] at hfinish
    have hline : Lacks "<?" ['\n'] := by decide
    rcases hregion.inlineCode_of_concat with rfl | ⟨rest', code, rfl⟩
    · refine hshown [] ['\n'] rfl hline ?_
      have hclose : trimEnd (w.text ++ w.indent ++ closeTag ++ ['\n'])
          = w.text ++ w.indent ++ closeTag := by
        rw [trimEnd_append_of_allBlank rfl]
        exact trimEnd_of_getLast? (c := '>') (by simp [closeTag]) (by decide)
      rw [hfinish, List.flatMap_nil, List.append_nil, hclose]
      simp [Call.written]
    · refine hshown ['\n'] ['\n'] rfl hline ?_
      have hclose : trimEnd (w.text ++ w.indent ++ closeTag ++ ['\n']
            ++ (rest' ++ [Call.inlineCode code]).flatMap Call.written)
          = w.text ++ w.indent ++ closeTag ++ ['\n']
            ++ (rest' ++ [Call.inlineCode code]).flatMap Call.written := by
        refine trimEnd_of_getLast? (c := '>') ?_ (by decide)
        simp [Call.written, closeTag, ← List.append_assoc]
      rw [hfinish, hclose]
      simp [Call.written]

end Begins

theorem visible_shown_concat_blank (calls : List Call) {gap : Text} (h : allBlank gap = true) :
    visible ((calls ++ [Call.markup gap]).map Call.shown) = visible (calls.map Call.shown) := by
  have hgap : visible [gap] = [] := visible_cons_of_allBlank h
  rw [List.map_append, visible_append, List.map_singleton, Call.shown, hgap, List.append_nil]

theorem visible_shown_concat_code (calls : List Call) (code : Text) :
    visible ((calls ++ [Call.inlineCode code]).map Call.shown) = visible (calls.map Call.shown) := by
  rw [List.map_append, visible_append, List.map_singleton, visible_cons_of_allBlank rfl,
    visible_nil, List.append_nil]

/-- Blanks at the beginning of a region make no difference to what is to be seen. -/
theorem visible_shown_dropWhile (calls : List Call) :
    visible ((calls.dropWhile Call.isBlankMarkup).map Call.shown)
      = visible (calls.map Call.shown) := by
  induction calls with
  | nil => rfl
  | cons call calls ih =>
    cases hc : call.isBlankMarkup with
    | false => rw [List.dropWhile_cons_of_neg (by simp [hc])]
    | true =>
      obtain ⟨t, rfl⟩ := Call.exists_of_isBlankMarkup hc
      rw [List.dropWhile_cons_of_pos hc, ih]
      exact (visible_cons_of_allBlank (t := t) hc).symm

/-- Nor do they to whether it ends itself. -/
theorem endsItself_dropWhile (calls : List Call) :
    EndsItself (calls.dropWhile Call.isBlankMarkup) ↔ EndsItself calls := by
  induction calls with
  | nil => rfl
  | cons call calls ih =>
    cases hc : call.isBlankMarkup with
    | false => rw [List.dropWhile_cons_of_neg (by simp [hc])]
    | true =>
      obtain ⟨t, rfl⟩ := Call.exists_of_isBlankMarkup hc
      rw [List.dropWhile_cons_of_pos hc, ih]
      cases calls with
      | cons next calls => simp [EndsItself]
      | nil =>
        have ht : trimEnd t = [] := trimEnd_of_allBlank hc
        simp [EndsItself, ht, closeTag]

/-- What a reader of a finished region comes to, by how the region ends. -/
theorem scan_finish_of_code (hw : Begins w) {call : Call} {rest : List Call}
    (h : Region (call :: rest)) (hcall : call.isBlankMarkup = false)
    (hl : ∀ t, .markup t ∈ call :: rest → Lacks "<?" t) :
    (¬ EndsItself (call :: rest) →
      ∃ shown, Scans (w.performAll (call :: rest)).finish shown
        ∧ visible shown = visible ((call :: rest).map Call.shown)) ∧
    (EndsItself (call :: rest) →
      (scan .code (w.performAll (call :: rest)).finish).1 = .markup) := by
  have hv := performAll_of_code h.pieces hcall hw.mode
  generalize w.performAll (call :: rest) = v at hv ⊢
  have hmode : v.mode = .markup := by rw [hv]
  have hindent : v.indent = w.indent := by rw [hv]
  have htext : v.text = w.text ++ w.indent ++ closeTag ++ ['\n']
      ++ (call :: rest).flatMap Call.written := by rw [hv]
  obtain ⟨front, last, hfront⟩ :=
    (List.eq_nil_or_concat (call :: rest)).resolve_left (List.cons_ne_nil _ _)
  rw [List.concat_eq_append] at hfront
  rw [hfront] at h hl htext ⊢
  cases hlast : last.isMarkup with
  | false =>
    obtain ⟨code, rfl, hcode⟩ := h.statements last (by simp) hlast
    refine ⟨fun _ => ⟨_, hw.scans_inlineCode h.of_append_left hcode allBlank_nil
      (fun t ht => hl t (by simp [ht])) hmode (by simp [htext, Call.written]), ?_⟩,
      fun ⟨t, ht, _⟩ => by simp at ht⟩
    rw [visible_stretches h.of_append_left rfl, visible_shown_concat_code]
  | true =>
    obtain ⟨t, rfl⟩ : ∃ t, last = .markup t := by cases last <;> simp_all [Call.isMarkup]
    have hiff : EndsItself (front ++ [.markup t]) ↔ closeTag <:+ trimEnd t := by
      simp [EndsItself]
    rw [hiff]
    refine ⟨fun hend => ?_, fun hend => hw.scan_closeTag h hend hl hmode htext⟩
    cases hblank : allBlank t with
    | false =>
      obtain ⟨gap, hgap, hscans⟩ := hw.scans_markup h hblank hend hl hmode hindent htext
      refine ⟨_, hscans, ?_⟩
      rw [visible_stretches h.concat_markup rfl, List.map_append, List.map_append, visible_append,
        visible_append]
      exact congrArg _ (visible_cons_congr (trim_append_right hgap) rfl)
    | true =>
      -- the first call shows something, so a piece of code precedes the blanks
      rcases h.inlineCode_of_concat with rfl | ⟨rest', code, rfl⟩
      · obtain ⟨rfl, -⟩ := List.cons.inj hfront
        exact absurd (hblank.symm.trans hcall) (by decide)
      · have hrest : Region rest' := h.of_append_left.of_append_left
        obtain ⟨_, he, hcode⟩ := h.statements (.inlineCode code) (by simp) rfl
        obtain rfl := Call.inlineCode.inj he
        refine ⟨_, hw.scans_inlineCode hrest hcode hblank (fun t ht => hl t (by simp [ht])) hmode
          (by simp [htext, Call.written]), ?_⟩
        rw [visible_stretches hrest rfl, visible_shown_concat_blank _ hblank,
          visible_shown_concat_code]

/-- If a region does not end itself, a reader sees what the calls show, and code goes on behind it;
else a reader stays in markup. -/
theorem scan_region (hw : Begins w) (h : Region calls)
    (hl : ∀ t, .markup t ∈ calls → Lacks "<?" t) :
    (¬ EndsItself calls → ∃ shown, Scans (w.performAll calls).finish shown
      ∧ visible shown = visible (calls.map Call.shown)) ∧
    (EndsItself calls → (scan .code (w.performAll calls).finish).1 = .markup) := by
  rw [← performAll_dropWhile hw.mode, ← visible_shown_dropWhile, ← endsItself_dropWhile]
  have hdrop := h.dropWhile Call.isBlankMarkup
  have hmem : ∀ t, .markup t ∈ calls.dropWhile Call.isBlankMarkup → Lacks "<?" t :=
    fun t ht => hl t ((List.dropWhile_sublist _).subset ht)
  have hhead := List.head?_dropWhile_not Call.isBlankMarkup calls
  generalize calls.dropWhile Call.isBlankMarkup = shown at hdrop hmem hhead ⊢
  cases shown with
  | nil =>
    have hfinish : w.finish = w.text := by simp [finish, Writer.enterCode, hw.mode]
    rw [performAll, List.foldl_nil, hfinish]
    exact ⟨fun _ => ⟨[], hw.runs, rfl⟩, fun hend => by simp [EndsItself] at hend⟩
  | cons call rest => exact scan_finish_of_code hw hdrop (by simpa using hhead) hmem

end Finish

end Writer

end WidgetCompiler.Php
