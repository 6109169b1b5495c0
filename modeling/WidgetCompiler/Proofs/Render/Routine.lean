import Mathlib
import WidgetCompiler.Catalog.Builtin
import WidgetCompiler.Markup.Sanitize
import WidgetCompiler.Proofs.Render.PlanMarkup
import WidgetCompiler.Proofs.Render.PlanValues
import WidgetCompiler.Proofs.Text.Decimal
import WidgetCompiler.Widget.Source

/-!
# The routine of a fragment shows the fragment

A plan is written as a routine: its bindings as lines of code, and then its parts.  A reader who
runs the routine sees each piece of markup in the plan, and goes on in code behind it, with the one
exception that `EndsInClose` names (`scan_routine`).

Three things make it so.  Names, ids and fallbacks are plain or stand in literals, so every line of
code runs.  A fragment has no `<?`, and neither has any markup that a plan makes of it.  And where
parts are merged, each piece of markup stands alone between pieces of code.
-/

namespace WidgetCompiler.Render

open Text Markup Php

/-! ## A fragment begins no instruction -/

theorem lacks_replace_instruction (s : Text) : Lacks "<?" (replace "<?" "&lt;?" s) := by
  have hhead (s : Text) : (replace "<?" "&lt;?" s).head? = some '?' → s.head? = some '?' := by
    intro h
    cases s with
    | nil => simp [replace] at h
    | cons c s =>
      rw [replace] at h
      split at h
      · simp at *
      · split at h
        · split at h
          · simp at h
          · exact h
        · simpa using h
  fun_induction replace "<?" "&lt;?" s with
  | case1 h => simp at h
  | case2 h => decide
  | case3 c s h => simp at h
  | case4 c s _ rest hrest _ ih =>
    exact Lacks.append (by decide) ih (apart_of_last (by decide))
  | case5 c s _ rest hrest h =>
    have := length_of_after? hrest
    simp at this h
    omega
  | case6 c s _ hnone ih =>
    intro h
    rcases List.infix_cons_iff.1 h with ⟨rest, hrest⟩ | h
    · -- a `?` behind a `<` would have been behind it in `s` already
      obtain ⟨rfl, hreplace⟩ : '<' = c ∧ '?' :: rest = replace "<?" "&lt;?" s := by
        simpa using hrest
      have := hhead s (by rw [← hreplace]; rfl)
      obtain ⟨s', rfl⟩ := List.head?_eq_some_iff.1 this
      simp [after?] at hnone
    · exact ih h

theorem lacks_sanitize (markup : Text) : Lacks "<?" (sanitize markup).markup :=
  Lacks.of_infix (lacks_replace_instruction _) ( trim_infix _)

/-- Neither does anything that a plan makes of a fragment. -/
theorem inherited_lacks : Inherited (Lacks "<?") where
  of_infix := Lacks.of_infix
  append hs ht h := by
    refine hs.append ht ?_
    rcases h with h | h
    · refine apart_of_last fun c hc hm => ?_
      obtain rfl : c = '<' := by simpa using hm
      simpa using h _ hc
    · refine apart_of_head fun c hc hm => ?_
      obtain rfl : c = '?' := by simpa using hm
      simpa using h _ hc
  fixed := by decide
  endTag {name} hname _ := by
    refine lacks_of_not_mem (c := '?') (by decide) ?_
    have hnot : '?' ∉ name := fun hm => absurd (List.all_eq_true.1 hname _ hm) (by decide)
    simp [hnot]

/-- Whatever the elements are, no piece of markup in the plan of a fragment begins an instruction. -/
theorem lacks_planRender_sanitize (markup : Text) (bs : List BoundElement) :
    ∀ t ∈ markupTexts (planRender (sanitize markup).markup bs).parts, Lacks "<?" t :=
  fun _ ht => of_mem_planRender inherited_lacks (lacks_sanitize markup) ht

/-- The heading is exchanged, and what is left of the instruction behind it is shown as text. -/
theorem lacks_planRender_sanitize_open :
    let markup : Text := "<h1>A</h1><?<? b"
    let element : Element := Element.make "h1" [] none (some "A") [] []
    let plan := planRender (sanitize markup).markup (bindForest Catalog.builtin [element])
    ("&lt;?&lt;? b" : Text) ∈ markupTexts plan.parts ∧ Lacks "<?" "&lt;?&lt;? b" := by
  intro markup element plan
  have hkept : (sanitize markup).markup = "<h1>A</h1>&lt;?&lt;? b" := by decide +kernel
  have htags : scanStartTags "<h1>A</h1>&lt;?&lt;? b" = [⟨"h1", "h1", 0, 4, [], false⟩] := by
    decide +kernel
  have htexts : markupTexts plan.parts
      = ["<a href=\"", "\"", ">", "<", ">", "</", ">", "</a>", "&lt;?&lt;? b"] := by
    simp only [plan, hkept, planRender, htags]
    cbv
  have hshown : ("&lt;?&lt;? b" : Text) ∈ markupTexts plan.parts := by
    rw [htexts]
    decide
  exact ⟨hshown, lacks_planRender_sanitize markup (bindForest Catalog.builtin [element]) _ hshown⟩

/-! ## Lines of code -/

theorem isPlainCode_decimal (n : Nat) : isPlainCode (decimal n) = true := by
  refine List.all_eq_true.2 fun c hc => decide_eq_true fun hm => ?_
  have : ∀ d ∈ specialInCode, d.isDigit = false := by decide
  exact Bool.false_ne_true ((this c hm).symm.trans (isDigit_of_mem_decimal hc))

theorem isPlainCode_localName {stem : Text} (h : stem ∈ stems) (index : Nat) :
    isPlainCode (localName stem index) = true := by
  have hstem : ∀ stem ∈ stems, isPlainCode stem = true := by decide
  have := isPlainCode_decimal index
  simp only [isPlainCode, localName, List.all_append, List.all_cons, Bool.and_eq_true] at this ⊢
  exact ⟨hstem stem h, by decide, this⟩

/-- Plans draw on nothing but plain names. -/
theorem supplies_plain (b : BoundElement) :
    Supplies (fun n => isPlainCode n = true) (fun _ => True) (fun _ => True) b where
  locals _ hs := isPlainCode_localName hs b.index
  control _ := trivial
  tag := trivial
  attributes _ := trivial
  empty := trivial
  hash := trivial

/-- A plan asks for markup and statements in turns. -/
theorem region_planRender (markup : Text) (bs : List BoundElement) :
    Writer.Region (callsOf (planRender markup bs).parts) := by
  have hdrawn : Drawn (fun n => isPlainCode n = true) (fun _ => True) (fun _ => True)
      (planRender markup bs).bindings (planRender markup bs).parts :=
    drawn_planRender fun b _ => supplies_plain b
  refine region_callsOf_mergeMarkup fun value hv name hname => ?_
  have hvalue := hdrawn.values value hv
  cases value with
  | setting id => simp [Value.name?] at hname
  | var n =>
    obtain rfl : n = name := by simpa [Value.name?] using hname
    exact hvalue
  | url n =>
    obtain rfl : n = name := by simpa [Value.name?] using hname
    exact hvalue

theorem runs_source (source : Source) : Runs source.toPhp := by
  have hsetting (id : Text) : Runs (Value.setting id).toPhp := runs_value (by simp [Value.IsPlain, Value.name?])
  have hempty : Runs "!empty(" := runs_of_isPlainCode rfl
  have hthen : Runs ") ? " := fun _ => rfl
  have hurl : Runs "['url']) ? " := fun _ => rfl
  have helse : Runs " : " := runs_of_isPlainCode rfl
  cases source with
  | setting id => exact hsetting id
  | settingOr id fallback =>
    exact ((((hempty.append (hsetting id)).append hthen).append (hsetting id)).append helse).append
      (runs_singleQuoted fallback)
  | linkOrNull id =>
    have hnull : Runs " : null" := runs_of_isPlainCode rfl
    exact (((hempty.append (hsetting id)).append hurl).append (hsetting id)).append hnull
  | urlOr id fallback =>
    have hrecord : Runs " : ['url' => " := fun _ => rfl
    have hclose : Runs "]" := runs_of_isPlainCode rfl
    exact (((((hempty.append (hsetting id)).append hurl).append (hsetting id)).append
      hrecord).append (runs_singleQuoted fallback)).append hclose

theorem runs_binding {b : Binding} (h : isPlainCode b.var = true) : Runs b.toPhp := by
  have hdollar : Runs ['$'] := runs_of_isPlainCode rfl
  have hassign : Runs " = " := runs_of_isPlainCode rfl
  have hend : Runs ";" := runs_of_isPlainCode rfl
  exact (((hdollar.append (runs_of_isPlainCode h)).append hassign).append
    (runs_source b.source)).append hend

/-- A line of code keeps a writer ready for a region. -/
theorem begins_line {w : Writer} (h : w.Begins) {code : Text} (hc : Runs (code ++ ['\n'])) :
    (w.line code).Begins := by
  have henter : w.enterCode = w := by simp [Writer.enterCode, h.mode]
  refine ⟨?_, ?_, ?_⟩
  · simp [Writer.line, henter, h.mode]
  · simpa [Writer.line, henter] using h.runs.append hc
  · simpa [Writer.line, henter] using h.indent

theorem begins_start {indent : Text} (h : allBlank indent = true) :
    (Writer.start indent).Begins := ⟨rfl, Runs.nil, h⟩

theorem begins_bindings {w : Writer} (h : w.Begins) {indent : Text} (hi : allBlank indent = true)
    {bindings : List Binding} (hb : ∀ b ∈ bindings, isPlainCode b.var = true) :
    (bindings.foldl (fun w b => w.line (indent ++ b.toPhp)) w).Begins := by
  induction bindings generalizing w with
  | nil => exact h
  | cons b bs ih =>
    have hcode := ((runs_of_allBlank hi).append (runs_binding (hb b (by simp)))).append
      (runs_of_allBlank (t := ['\n']) rfl)
    exact ih (begins_line h hcode) fun b' hb' => hb b' (by simp [hb'])

/-! ## Routines -/

/-- What a fresh writer makes of a plan. -/
def routine (indent lineIndent : Text) (p : Plan) : Text :=
  (p.write (Writer.start indent) lineIndent).finish

/-- The last part is markup with a `?>` at its end. -/
def EndsInClose (ps : List Part) : Prop :=
  ∃ t, ps.getLast? = some (.markup t) ∧ closeTag <:+ trimEnd t

theorem finish_enterCode (w : Writer) : w.enterCode.finish = w.finish := by
  have : w.enterCode.enterCode = w.enterCode := by
    rw [Writer.enterCode, Writer.mode_enterCode]
  rw [Writer.finish, this, Writer.finish]

/-- Parts that show nothing leave a writer in code as it is. -/
theorem performAll_of_not_hasMarkup {p : Plan} (h : p.hasMarkup = false) {w : Writer}
    (hmode : w.mode = .code) : w.performAll (callsOf p.parts) = w := by
  have hblank : ∀ ps : List Part, ps.any (·.isVisible) = false →
      (callsOf ps).dropWhile Writer.Call.isBlankMarkup = [] := by
    intro ps hps
    induction ps with
    | nil => simp [callsOf]
    | cons q qs ih =>
      rw [List.any_cons, Bool.or_eq_false_iff] at hps
      cases q with
      | markup t =>
        have ht : allBlank t = true := by simpa [Part.isVisible] using hps.1
        rw [callsOf, List.dropWhile_cons_of_pos (by exact ht)]
        exact ih hps.2
      | _ => simp [Part.isVisible] at hps
  rw [← Writer.performAll_dropWhile hmode, hblank p.parts h]
  rfl

/-- A routine is code, and behind it the region that the parts ask for. -/
theorem exists_region {p : Plan} (hb : ∀ b ∈ p.bindings, isPlainCode b.var = true)
    {indent lineIndent : Text} (hi : allBlank indent = true) (hj : allBlank lineIndent = true) :
    ∃ w : Writer, w.Begins ∧ routine indent lineIndent p = (w.performAll (callsOf p.parts)).finish := by
  have hw := begins_bindings (begins_start hi) hj hb
  simp only [routine, Plan.write]
  split
  case isTrue =>
    have hcomment : Runs (lineIndent ++ ("// Widget markup" : Text) ++ ['\n']) := by
      have hline : Runs ("// Widget markup\n" : Text) := fun _ => rfl
      have := (runs_of_allBlank hj).append hline
      rwa [List.append_assoc]
    refine ⟨_, begins_line (begins_line hw (show Runs ([] ++ ['\n']) from runs_of_allBlank rfl)) hcomment, ?_⟩
    rw [finish_enterCode, writeParts_eq_performAll]
    rfl
  case isFalse h =>
    refine ⟨_, hw, ?_⟩
    rw [performAll_of_not_hasMarkup (Bool.eq_false_iff.2 h) hw.mode]

/-- The calls end in markup where the parts do. -/
theorem getLast?_callsOf {ps : List Part} {t : Text} :
    (callsOf ps).getLast? = some (.markup t) ↔ ps.getLast? = some (.markup t) := by
  rcases List.eq_nil_or_concat ps with rfl | ⟨qs, q, rfl⟩
  · simp [callsOf]
  · have happend : ∀ a b : List Part, callsOf (a ++ b) = callsOf a ++ callsOf b := by
      intro a b
      induction a with
      | nil => simp [callsOf]
      | cons p ps ih => cases p <;> simp [callsOf, ih]
    rw [List.concat_eq_append, happend, List.getLast?_concat]
    cases q with
    | ifSet var body =>
      rw [callsOf, callsOf, ← List.cons_append, ← List.append_assoc, List.getLast?_concat]
      simp
    | _ => simp [callsOf]

theorem endsItself_callsOf (ps : List Part) :
    Writer.EndsItself (callsOf ps) ↔ EndsInClose ps :=
  exists_congr fun _ => and_congr_left fun _ => getLast?_callsOf

/-- What is run and what is shown of the routine of a fragment.  Unless the last part is markup with
a `?>` at its end, a reader who comes to the routine in code is in code again behind it, whatever
follows is read as if it stood alone, and each piece of markup was shown in its place, with nothing
else between.  If the last part is such markup, the reader is left in markup. -/
theorem scan_routine {indent lineIndent : Text} (hi : allBlank indent = true)
    (hj : allBlank lineIndent = true) (markup : Text) (c : Catalog) (forest : List Element) :
    let plan := planRender (sanitize markup).markup (bindForest c forest)
    let r := routine indent lineIndent plan
    ((scan .code r).1 = .code ∧ visible (scan .code r).2 = visible (markupTexts plan.parts)
      ↔ ¬ EndsInClose plan.parts) ∧
    (¬ EndsInClose plan.parts →
      ∀ after, scan .code (r ++ after) = ((scan .code after).1, (scan .code r).2
        ++ (scan .code after).2)) ∧
    (EndsInClose plan.parts → (scan .code r).1 = .markup) := by
  intro plan r
  have hdrawn : Drawn (fun n => isPlainCode n = true) (fun _ => True) (fun _ => True)
      plan.bindings plan.parts := drawn_planRender fun b _ => supplies_plain b
  have hregion : Writer.Region (callsOf plan.parts) := region_planRender _ _
  have hlacks : ∀ t, .markup t ∈ callsOf plan.parts → Lacks "<?" t :=
    fun t ht => of_mem_planRender inherited_lacks (lacks_sanitize markup) (mem_markupTexts.2 ht)
  obtain ⟨w, hw, hr⟩ := exists_region (fun b hb => (hdrawn.bindings b hb).1) hi hj
  obtain ⟨hgood, hbad⟩ := Writer.scan_region hw hregion hlacks
  rw [← hr, endsItself_callsOf] at hgood hbad
  have hscans (hend : ¬ EndsInClose plan.parts) : Scans r (scan .code r).2
      ∧ (scan .code r).1 = .code ∧ visible (scan .code r).2 = visible (markupTexts plan.parts) := by
    obtain ⟨shown, hshown, hvisible⟩ := hgood hend
    have hself : scan .code r = (.code, shown) := by simpa [scan] using hshown []
    rw [hself]
    exact ⟨hshown, rfl, hvisible.trans (visible_shown_callsOf plan.parts)⟩
  refine ⟨⟨fun hgood hend => ?_, fun hend => (hscans hend).2⟩,
    fun hend => (hscans hend).1, hbad⟩
  exact absurd (hgood.1.symm.trans (hbad hend)) (by decide)

/-- A text without elements is a plan of one part. -/
theorem planRender_sanitize_nil {markup text : Text} (hs : (sanitize markup).markup = text)
    (h : text ≠ []) (c : Catalog) :
    planRender (sanitize markup).markup (bindForest c []) = { parts := [.markup text] } := by
  simp [planRender, bindForest, Element.preorderAll, bindFrom, planFrom, mergeMarkup, hs, h]

/-- A `?>` within the text is shown like any other. -/
theorem scan_routine_within :
    let plan := planRender (sanitize "a ?> b").markup (bindForest Catalog.builtin [])
    let r := routine bodyIndent bodyIndent plan
    allBlank bodyIndent = true ∧ (scan .code r).1 = .code
      ∧ visible (scan .code r).2 = [("a ?> b" : Text)] := by
  intro plan r
  have hplan : plan = { parts := [.markup "a ?> b"] } :=
    planRender_sanitize_nil (by cbv) (by decide) Catalog.builtin
  have hend : ¬ EndsInClose plan.parts := by
    rw [hplan]
    rintro ⟨t, ht, hsuffix⟩
    obtain rfl : ("a ?> b" : Text) = t := by simpa using ht
    exact absurd hsuffix (by decide)
  have hindent : allBlank bodyIndent = true := rfl
  have h := (scan_routine hindent hindent "a ?> b" Catalog.builtin []).1.2 hend
  refine ⟨rfl, h.1, h.2.trans ?_⟩
  change visible (markupTexts plan.parts) = _
  rw [hplan, markupTexts, markupTexts]
  decide

/-- A `?>` at the end of the text is taken back, and no code follows. -/
theorem scan_routine_at_end :
    let plan := planRender (sanitize "Hi ?>").markup (bindForest Catalog.builtin [])
    markupTexts plan.parts = [("Hi ?>" : Text)]
      ∧ scan .code (routine bodyIndent bodyIndent plan) = (.markup, [("\nHi\n" : Text)]) := by
  intro plan
  have hplan : plan = { parts := [.markup "Hi ?>"] } :=
    planRender_sanitize_nil (by cbv) (by decide) Catalog.builtin
  rw [hplan]
  exact ⟨by simp [markupTexts], by cbv⟩

end WidgetCompiler.Render
