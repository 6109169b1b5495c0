import WidgetCompiler.Proofs.Validation.RenderModes
import WidgetCompiler.Proofs.Validation.Quotes
import WidgetCompiler.Validation.Basic

/-!
# Sources that pass

`Declares` says that a source has the class and the methods that a widget has to have, by what
stands in it.  With that, with harmless places, closed literals and a method in order, nothing is
left for a report to say (`validate?_eq_some`).
-/

namespace WidgetCompiler.Validation

open Text

section

variable {s name : Text}

/-! ## The class and its methods -/

/-- The declarations that a widget has to have stand in the text. -/
structure Declares (className s : Text) : Prop where
  cls : ("\nclass " ++ className ++ " extends \\Elementor\\Widget_Base \x7b" : Text) <:+: s
  methods : ∀ name ∈ requiredMethods, (" function " ++ name ++ "(" : Text) <:+: s

theorem isSome_methodNamed (hname : ∃ c ∈ name.head?, isBlank c = false)
    (h : (" function " ++ name ++ "(" : Text) <:+: s) :
    (Pattern.findOffset? (methodNamed name) s).isSome = true := by
  obtain ⟨front, rest, rfl⟩ := h
  have hsplit : front ++ (" function " ++ name ++ "(" : Text) ++ rest
      = (front ++ [' ']) ++ (("function" : Text) ++ ' ' :: (name ++ '(' :: rest)) := by
    simp
  refine Pattern.isSome_findOffset? hsplit (by simp) ?_
  have hlast : (front ++ [' ']).getLast? = some ' ' := List.getLast?_concat
  have hblanks : afterSomeBlanks? (' ' :: (name ++ '(' :: rest)) = some (name ++ '(' :: rest) := by
    obtain ⟨c, hc, hblank⟩ := hname
    obtain ⟨name, rfl⟩ := List.head?_eq_some_iff.1 hc
    simp [afterSomeBlanks?, afterBlanks, hblank, show isBlank ' ' = true from rfl]
  have hword : wordMayBegin (some ' ') = true := by decide
  simp only [hlast, methodNamed, hword, if_true, after?_append, Option.bind_some, hblanks]
  rfl

theorem isSome_classDeclaration {className : Text}
    (hclass : ∀ c ∈ className, (c.isAlphanum || c == '_') = true)
    (hhead : ∃ c ∈ className.head?, c.isAlpha = true)
    (h : ("\nclass " ++ className ++ " extends \\Elementor\\Widget_Base \x7b" : Text) <:+: s) :
    (Pattern.findOffset? classDeclaration s).isSome = true := by
  obtain ⟨front, rest, rfl⟩ := h
  obtain ⟨c, hc, halpha⟩ := hhead
  obtain ⟨className, rfl⟩ := List.head?_eq_some_iff.1 hc
  have hsplit : front ++ ("\nclass " ++ c :: className ++ " extends \\Elementor\\Widget_Base \x7b" : Text)
        ++ rest
      = (front ++ ['\n']) ++ (("class" : Text) ++ ' ' :: c :: (className
        ++ (" extends \\Elementor\\Widget_Base \x7b" : Text) ++ rest)) := by
    simp
  refine Pattern.isSome_findOffset? hsplit (by simp) ?_
  have hlast : (front ++ ['\n']).getLast? = some '\n' := List.getLast?_concat
  have hblank : isBlank c = false := isBlank_of_isAlphanum (isAlphanum_of_isAlpha halpha)
  have hblanks (r : Text) : afterSomeBlanks? (' ' :: c :: r) = some (c :: r) := by
    simp [afterSomeBlanks?, afterBlanks, hblank, show isBlank ' ' = true from rfl]
  have hword : wordMayBegin (some '\n') = true := by decide
  have hdrop : (className ++ (" extends \\Elementor\\Widget_Base \x7b" : Text) ++ rest).dropWhile
      (fun c => c.isAlphanum || c == '_')
      = (" extends \\Elementor\\Widget_Base \x7b" : Text) ++ rest := by
    rw [List.append_assoc]
    refine dropWhile_run (fun d hd => hclass d (by simp [hd])) fun d hd => ?_
    obtain rfl : ' ' = d := Option.some.inj hd
    decide
  have hextends : afterSomeBlanks? ((" extends \\Elementor\\Widget_Base \x7b" : Text) ++ rest)
      = some (("extends" : Text) ++ ((" \\Elementor\\Widget_Base \x7b" : Text) ++ rest)) := rfl
  have hbase : afterSomeBlanks? ((" \\Elementor\\Widget_Base \x7b" : Text) ++ rest)
      = some ('\\' :: (("Elementor\\Widget_Base" : Text) ++ ((" \x7b" : Text) ++ rest))) := rfl
  have hends : wordEnds ((" \x7b" : Text) ++ rest) = true := rfl
  simp only [hlast, classDeclaration, hword, if_true, after?_append, Option.bind_some, hblanks,
    halpha, Bool.true_or, hdrop, hextends, hbase, hends, Option.isSome_some]

theorem checkClass_eq_nil {className : Text}
    (hclass : ∀ c ∈ className, (c.isAlphanum || c == '_') = true)
    (hhead : ∃ c ∈ className.head?, c.isAlpha = true) (h : Declares className s) :
    checkClass (Source.ofText s) = [] := by
  have hmethods : requiredMethods.filter (fun name =>
      (Pattern.findOffset? (methodNamed name) s).isNone) = [] := by
    refine List.filter_eq_nil_iff.2 fun name hname => ?_
    have hfirst : ∀ name ∈ requiredMethods, ∃ c ∈ name.head?, isBlank c = false := by decide
    simpa [Option.isNone_iff_eq_none, ← Option.isSome_iff_ne_none] using
      isSome_methodNamed (hfirst name hname) (h.methods name hname)
  simp only [checkClass, Source.ofText, isSome_classDeclaration hclass hhead h.cls, if_true, hmethods]
  rfl

/-! ## The report -/

/-- Lines end at line feeds only. -/
theorem not_mem_return (h : AllHarmless s) : '\r' ∉ s := by
  intro hm
  obtain ⟨a, b, rfl⟩ := List.append_of_mem hm
  exact (h a ('\r' :: b) rfl (by simp)).line b rfl

/-- A source with which nothing is wrong. -/
theorem validate?_eq_some (hplaces : AllHarmless s) (hclosed : Closed .markup s)
    (hmodes : checkRenderModes (Source.ofText s) = [])
    (hclass : checkClass (Source.ofText s) = []) : validate? s = some ⟨true, [], []⟩ := by
  rw [validate?, checkQuotes?_eq_nil.2 hclosed, Option.map_some, hmodes, hclass,
    checkTransitions_eq_nil hplaces, checkPageStructure_eq_nil hplaces,
    checkControlIds_eq_nil hplaces, checkEscaping_eq_nil hplaces, checkGlobalCss_eq_nil hplaces]
  rfl

end

end WidgetCompiler.Validation
