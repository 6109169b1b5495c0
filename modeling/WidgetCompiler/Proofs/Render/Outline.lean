import WidgetCompiler.Proofs.Php.Region
import WidgetCompiler.Render.Plan

/-!
# The outline of a plan

The parts of a plan are a tree; what a writer is asked for is a list of calls (`callsOf`).  The
outline is the text that is left when every value is reduced to a space: it holds all the markup of
the parts, with a seam wherever something is put in.  Merging neighbouring pieces of markup does
not change it (`outline_mergeMarkup`), so whatever holds of the outline and of every piece of it
holds of the markup of the merged parts (`infix_outline_of_mem`).

What is asked for is markup or one of a few pieces of code (`eq_of_mem_callsOf`), and merged parts
alternate: between two pieces of markup there is a piece of code (`region_callsOf_mergeMarkup`).
-/

namespace WidgetCompiler.Render

open Text Php

/-- What a writer is asked for by parts. -/
def callsOf : List Part → List Writer.Call
  | [] => []
  | .markup t :: ps => .markup t :: callsOf ps
  | .echo value escape :: ps => .inlineCode (echoStatement value escape) :: callsOf ps
  | .linkAttributes var :: ps => .inlineCode (linkStatements var) :: callsOf ps
  | .ifSet var body :: ps =>
    .inlineCode ("if ($" ++ var ++ ") :") :: (callsOf body ++ .inlineCode "endif;" :: callsOf ps)

/-- The texts of all pieces of markup in parts, in their order. -/
def markupTexts : List Part → List Text
  | [] => []
  | .markup t :: ps => t :: markupTexts ps
  | .ifSet _ body :: ps => markupTexts body ++ markupTexts ps
  | .echo _ _ :: ps => markupTexts ps
  | .linkAttributes _ :: ps => markupTexts ps

/-- The markup of parts, with a space for each value and at each side of a body. -/
def outline : List Part → Text
  | [] => []
  | .markup t :: ps => t ++ outline ps
  | .ifSet _ body :: ps => ' ' :: (outline body ++ ' ' :: outline ps)
  | .echo _ _ :: ps => ' ' :: outline ps
  | .linkAttributes _ :: ps => ' ' :: outline ps

/-- Writing parts is doing what they ask for. -/
theorem writeParts_eq_performAll (w : Writer) (ps : List Part) :
    writeParts w ps = w.performAll (callsOf ps) := by
  fun_induction writeParts w ps with
  | case1 w => rw [callsOf, Writer.performAll, List.foldl_nil]
  | case2 w t ps ih => rw [ih, callsOf]; rfl
  | case3 w value escape ps ih => rw [ih, callsOf]; rfl
  | case4 w var ps ih => rw [ih, callsOf]; rfl
  | case5 w var body ps w₁ w₂ _ ihbody ih =>
    have hcalls : callsOf (.ifSet var body :: ps)
        = [.inlineCode ("if ($" ++ var ++ ") :")]
          ++ (callsOf body ++ ([.inlineCode "endif;"] ++ callsOf ps)) := by simp [callsOf]
    rw [ih, hcalls, Writer.performAll_append, Writer.performAll_append, Writer.performAll_append]
    exact congrArg (fun v => (Writer.inlineCode v "endif;").performAll (callsOf ps)) ihbody

/-! ## The markup in parts -/

theorem mem_markupTexts {ps : List Part} {t : Text} :
    t ∈ markupTexts ps ↔ .markup t ∈ callsOf ps := by
  fun_induction markupTexts ps <;> simp_all [callsOf]

/-- What the calls show is the markup of the parts. -/
theorem visible_shown_callsOf (ps : List Part) :
    visible ((callsOf ps).map Writer.Call.shown) = visible (markupTexts ps) := by
  have hblank (ts : List Text) : visible ([] :: ts) = visible ts := visible_cons_of_allBlank rfl
  fun_induction markupTexts ps with
  | case1 => rw [callsOf, List.map_nil]
  | case2 t ps ih =>
    rw [callsOf, List.map_cons]
    exact visible_cons_congr rfl ih
  | case3 var body ps ihbody ih =>
    simp only [callsOf, List.map_cons, List.map_append, Writer.Call.shown, hblank, visible_append,
      ihbody, ih]
  | case4 value escape ps ih => simpa only [callsOf, List.map_cons, Writer.Call.shown, hblank]
  | case5 var ps ih => simpa only [callsOf, List.map_cons, Writer.Call.shown, hblank]

/-- Each piece of markup is a piece of the outline. -/
theorem infix_outline_of_mem {ps : List Part} {t : Text} (h : t ∈ markupTexts ps) :
    t <:+: outline ps := by
  have behind {s u : Text} (hu : t <:+: u) : t <:+: s ++ u :=
    hu.trans (List.suffix_append s u).isInfix
  fun_induction outline ps with
  | case1 => simp [markupTexts] at h
  | case2 u ps ih =>
    rw [markupTexts] at h
    rcases List.mem_cons.1 h with rfl | h
    · exact (List.prefix_append t _).isInfix
    · exact behind (ih h)
  | case3 var body ps ihbody ih =>
    rw [markupTexts] at h
    rcases List.mem_append.1 h with h | h
    · exact behind (s := [' ']) ((ihbody h).trans (List.prefix_append _ _).isInfix)
    · have := behind (s := ' ' :: outline body ++ [' ']) (ih h)
      simpa using this
  | case4 value escape ps ih =>
    rw [markupTexts] at h
    exact behind (s := [' ']) (ih h)
  | case5 var ps ih =>
    rw [markupTexts] at h
    exact behind (s := [' ']) (ih h)

/-! ## Merged parts -/

theorem outline_mergeMarkup (ps : List Part) : outline (mergeMarkup ps) = outline ps := by
  fun_induction mergeMarkup ps <;> simp_all [outline]

/-! ## The values in parts -/

/-- The name in a value. -/
def Value.name? : Value → Option Text
  | .setting _ => none
  | .var name => some name
  | .url name => some name

/-- The values that parts ask for. -/
def valuesIn : List Part → List Value
  | [] => []
  | .markup _ :: ps => valuesIn ps
  | .echo value _ :: ps => value :: valuesIn ps
  | .linkAttributes var :: ps => .var var :: valuesIn ps
  | .ifSet var body :: ps => .var var :: (valuesIn body ++ valuesIn ps)

theorem valuesIn_append (a b : List Part) : valuesIn (a ++ b) = valuesIn a ++ valuesIn b := by
  induction a with
  | nil => simp [valuesIn]
  | cons p ps ih => cases p <;> simp [valuesIn, ih]

theorem valuesIn_mergeMarkup (ps : List Part) : valuesIn (mergeMarkup ps) = valuesIn ps := by
  fun_induction mergeMarkup ps <;> simp_all [valuesIn]

/-- The pieces of code between the markup of parts that ask for the given values. -/
inductive CodeOf (values : List Value) : Text → Prop
  | echo {value : Value} (hvalue : value ∈ values) (escape : Escape) :
    CodeOf values (echoStatement value escape)
  | link {var : Text} (hvar : .var var ∈ values) : CodeOf values (linkStatements var)
  | ifSet {var : Text} (hvar : .var var ∈ values) : CodeOf values ("if ($" ++ var ++ ") :")
  | endIf : CodeOf values "endif;"

theorem CodeOf.mono {values values' : List Value} {code : Text} (h : CodeOf values code)
    (hsub : values ⊆ values') : CodeOf values' code := by
  cases h with
  | echo hvalue escape => exact .echo (hsub hvalue) escape
  | link hvar => exact .link (hsub hvar)
  | ifSet hvar => exact .ifSet (hsub hvar)
  | endIf => exact .endIf

/-- All that parts ask for is markup, and code that is made of their values. -/
theorem eq_of_mem_callsOf {ps : List Part} {call : Writer.Call} (hc : call ∈ callsOf ps) :
    (∃ t, call = .markup t) ∨ ∃ code, CodeOf (valuesIn ps) code ∧ call = .inlineCode code := by
  -- what some of the parts ask for, all of them do
  have widen {values values' : List Value} (hsub : values ⊆ values')
      (h : (∃ t, call = .markup t) ∨ ∃ code, CodeOf values code ∧ call = .inlineCode code) :
      (∃ t, call = .markup t) ∨ ∃ code, CodeOf values' code ∧ call = .inlineCode code :=
    h.imp_right fun ⟨code, hcode, heq⟩ => ⟨code, hcode.mono hsub, heq⟩
  fun_induction callsOf ps with
  | case1 => exact absurd hc List.not_mem_nil
  | case2 t ps ih =>
    rcases List.mem_cons.1 hc with rfl | hc
    · exact .inl ⟨t, rfl⟩
    · exact widen (by simp [valuesIn]) (ih hc)
  | case3 value escape ps ih =>
    rcases List.mem_cons.1 hc with rfl | hc
    · exact .inr ⟨_, .echo (by simp [valuesIn]) escape, rfl⟩
    · exact widen (by simp [valuesIn]) (ih hc)
  | case4 var ps ih =>
    rcases List.mem_cons.1 hc with rfl | hc
    · exact .inr ⟨_, .link (by simp [valuesIn]), rfl⟩
    · exact widen (by simp [valuesIn]) (ih hc)
  | case5 var body ps ihbody ih =>
    simp only [List.mem_cons, List.mem_append] at hc
    rcases hc with rfl | hc | rfl | hc
    · exact .inr ⟨_, .ifSet (by simp [valuesIn]), rfl⟩
    · exact widen (by simp [valuesIn]) (ihbody hc)
    · exact .inr ⟨_, .endIf, rfl⟩
    · exact widen (by simp [valuesIn]) (ih hc)

theorem codeOf_of_mem_callsOf {ps : List Part} {code : Text}
    (hc : .inlineCode code ∈ callsOf ps) : CodeOf (valuesIn ps) code := by
  rcases eq_of_mem_callsOf hc with ⟨t, ht⟩ | ⟨code', hcode, heq⟩
  · simp at ht
  · rwa [Writer.Call.inlineCode.inj heq]

/-- The name in a value, if there is one, is a name in code. -/
def Value.IsPlain (value : Value) : Prop := ∀ name ∈ value.name?, isPlainCode name = true

/-! ## The code in parts -/

theorem ends_append {s t : Text} (h : ∃ c ∈ t.getLast?, isBlank c = false) :
    ∃ c ∈ (s ++ t).getLast?, isBlank c = false := by
  obtain ⟨c, hc, hblank⟩ := h
  exact ⟨c, by rw [List.getLast?_append, Option.mem_def.1 hc]; rfl, hblank⟩

theorem runs_value {value : Value} (h : value.IsPlain) : Runs value.toPhp := by
  have hdollar : Runs ['$'] := runs_of_isPlainCode rfl
  cases value with
  | setting id =>
    have hopen : Runs "$settings[" := runs_of_isPlainCode rfl
    have hclose : Runs "]" := runs_of_isPlainCode rfl
    exact (hopen.append (runs_singleQuoted id)).append hclose
  | var name => exact hdollar.append (runs_of_isPlainCode (h name rfl))
  | url name =>
    have hurl : Runs "['url']" := fun _ => rfl
    exact (hdollar.append (runs_of_isPlainCode (h name rfl))).append hurl

theorem statement_echo {value : Value} (h : value.IsPlain) (escape : Escape) :
    Writer.Statement (echoStatement value escape) where
  runs := by
    have hecho : Runs "echo " := runs_of_isPlainCode rfl
    have hfunction : Runs escape.function := by cases escape <;> exact runs_of_isPlainCode rfl
    have hopen : Runs "(" := runs_of_isPlainCode rfl
    have hclose : Runs ");" := runs_of_isPlainCode rfl
    exact (((hecho.append hfunction).append hopen).append (runs_value h)).append hclose
  ends := ends_append (t := ");") ⟨';', rfl, rfl⟩

theorem statement_link {var : Text} (h : isPlainCode var = true) :
    Writer.Statement (linkStatements var) where
  runs := by
    have hvar : Runs var := runs_of_isPlainCode h
    have hecho : Runs "echo !empty($" := runs_of_isPlainCode rfl
    have htarget : Runs "['is_external']) ? ' target=\"_blank\"' : ''; echo !empty($" :=
      fun _ => rfl
    have hrel : Runs "['nofollow']) ? ' rel=\"nofollow\"' : '';" := fun _ => rfl
    exact (((hecho.append hvar).append htarget).append hvar).append hrel
  ends := ends_append (t := "['nofollow']) ? ' rel=\"nofollow\"' : '';") ⟨';', rfl, rfl⟩

theorem statement_ifSet {var : Text} (h : isPlainCode var = true) :
    Writer.Statement ("if ($" ++ var ++ ") :") where
  runs := by
    have hif : Runs "if ($" := runs_of_isPlainCode rfl
    have hcolon : Runs ") :" := runs_of_isPlainCode rfl
    exact (hif.append (runs_of_isPlainCode h)).append hcolon
  ends := ends_append (t := ") :") ⟨':', rfl, rfl⟩

theorem statement_endIf : Writer.Statement "endif;" where
  runs := runs_of_isPlainCode rfl
  ends := ⟨';', rfl, rfl⟩

/-- Whatever is not markup is a statement, if the names are plain. -/
theorem statement_of_mem_callsOf {ps : List Part} (h : ∀ value ∈ valuesIn ps, value.IsPlain)
    {call : Writer.Call} (hc : call ∈ callsOf ps) (hmarkup : call.isMarkup = false) :
    ∃ code, call = .inlineCode code ∧ Writer.Statement code := by
  rcases eq_of_mem_callsOf hc with ⟨t, rfl⟩ | ⟨code, hcode, rfl⟩
  · simp [Writer.Call.isMarkup] at hmarkup
  · refine ⟨code, rfl, ?_⟩
    cases hcode with
    | echo hvalue escape => exact statement_echo (h _ hvalue) escape
    | link hvar => exact statement_link (h _ hvar _ rfl)
    | ifSet hvar => exact statement_ifSet (h _ hvar _ rfl)
    | endIf => exact statement_endIf

/-- Merged parts have a piece of code between any two pieces of markup. -/
theorem alternates_callsOf_mergeMarkup (ps : List Part) :
    (callsOf (mergeMarkup ps)).IsChain fun a b => ¬ (a.isMarkup = true ∧ b.isMarkup = true) := by
  have code {c : Text} {calls : List Writer.Call}
      (h : calls.IsChain fun a b => ¬ (a.isMarkup = true ∧ b.isMarkup = true)) :
      (Writer.Call.inlineCode c :: calls).IsChain
        fun a b => ¬ (a.isMarkup = true ∧ b.isMarkup = true) :=
    List.isChain_cons.2 ⟨fun _ _ hm => by simp [Writer.Call.isMarkup] at hm, h⟩
  fun_induction mergeMarkup ps with
  | case1 => rw [callsOf]; exact List.isChain_nil
  | case2 t ps _ ih => exact ih
  | case3 t ps _ u qs hqs ih =>
    rw [hqs, callsOf, List.isChain_cons] at ih
    rw [callsOf]
    exact List.isChain_cons.2 ih
  | case4 t ps _ hqs ih =>
    rw [callsOf]
    refine List.isChain_cons.2 ⟨fun call hcall hm => ?_, ih⟩
    cases hps : mergeMarkup ps with
    | nil => simp [hps, callsOf] at hcall
    | cons q qs =>
      cases q with
      | markup u => exact hqs u qs hps
      | _ =>
        rw [hps, callsOf] at hcall
        obtain rfl := by simpa using hcall
        simp [Writer.Call.isMarkup] at hm
  | case5 var body ps ihbody ih =>
    rw [callsOf]
    refine code (List.isChain_append.2 ⟨ihbody, code ih, fun a _ b hb hm => ?_⟩)
    obtain rfl : .inlineCode "endif;" = b := by simpa using hb
    simp [Writer.Call.isMarkup] at hm
  | case6 value escape ps ih => rw [callsOf]; exact code ih
  | case7 var ps ih => rw [callsOf]; exact code ih

theorem region_callsOf_mergeMarkup {ps : List Part}
    (h : ∀ value ∈ valuesIn (mergeMarkup ps), value.IsPlain) :
    Writer.Region (callsOf (mergeMarkup ps)) where
  statements _ hc hmarkup := statement_of_mem_callsOf h hc hmarkup
  alternates := alternates_callsOf_mergeMarkup ps

end WidgetCompiler.Render
