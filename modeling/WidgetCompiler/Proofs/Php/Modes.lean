import WidgetCompiler.Php.Writer
import WidgetCompiler.Proofs.Text.Seam

/-!
# Reading a text in modes

A text that a `Writer` has written is read from left to right, in code first.  In code only `?>`
counts, and markup follows it; in markup only `<?php` counts, and code follows it.  `modeAfter` is
the mode that is reached so, and `Reads` says that no delimiter stands in the wrong mode.

Both go along the text: where no delimiter comes about across a seam, what is reached behind two
texts is what the second one reaches from where the first one ends (`modeAfter_append`,
`Reads.append`).
-/

namespace WidgetCompiler.Php

open Text

/-- The mode that is reached behind a text which begins in the given mode. -/
def modeAfter : Mode → Text → Mode
  | m, [] => m
  | .code, '?' :: '>' :: s => modeAfter .markup s
  | .markup, '<' :: '?' :: 'p' :: 'h' :: 'p' :: s => modeAfter .code s
  | m, _ :: s => modeAfter m s

/-- Neither delimiter comes about where two texts meet. -/
structure Seamless (s t : Text) : Prop where
  opening : Apart openTag s t
  closing : Apart closeTag s t

namespace Seamless

variable {s t u : Text}

theorem of_prefix (h : Seamless s t) (hu : u <+: t) : Seamless s u :=
  ⟨h.opening.of_prefix hu, h.closing.of_prefix hu⟩

theorem of_suffix (h : Seamless s t) (hu : u <:+ s) : Seamless u t :=
  ⟨h.opening.of_suffix hu, h.closing.of_suffix hu⟩

/-- The first text is empty, or ends in a character that no delimiter goes on from. -/
theorem of_last (h : ∀ c ∈ s.getLast?, c ∉ ("<?ph" : Text)) : Seamless s t := by
  refine ⟨apart_of_last fun c hc => h c hc, apart_of_last fun c hc hm => h c hc ?_⟩
  obtain rfl : c = '?' := by simpa [closeTag] using hm
  decide

theorem of_concat {c : Char} (h : c ∉ ("<?ph" : Text)) : Seamless (s ++ [c]) t := by
  refine of_last fun d hd => ?_
  obtain rfl : c = d := by simpa using hd
  exact h

/-- The second text begins with a character that no delimiter goes on with. -/
theorem of_head (h : ∀ c ∈ t.head?, c ∉ ("?ph>" : Text)) : Seamless s t := by
  refine ⟨apart_of_head fun c hc hm => h c hc ?_, apart_of_head fun c hc hm => h c hc ?_⟩
  · have hm' : c ∈ ['?', 'p', 'h', 'p'] := hm
    simp only [List.mem_cons, List.not_mem_nil, or_false] at hm'
    rcases hm' with rfl | rfl | rfl | rfl <;> decide
  · obtain rfl : c = '>' := by simpa [closeTag] using hm
    decide

end Seamless

theorem Seamless.openTag {s t : Text} : Seamless s (openTag ++ t) := by
  refine of_head fun c hc => ?_
  obtain rfl : '<' = c := by simpa [Php.openTag] using hc
  decide

theorem modeAfter_append {m : Mode} {s t : Text} (h : Seamless s t) :
    modeAfter m (s ++ t) = modeAfter (modeAfter m s) t := by
  fun_induction modeAfter m s with
  | case1 => rfl
  | case2 s ih =>
    exact ih (h.of_suffix ⟨['?', '>'], rfl⟩)
  | case3 s ih =>
    exact ih (h.of_suffix ⟨['<', '?', 'p', 'h', 'p'], rfl⟩)
  | case4 m c s hclose hopen ih =>
    have hs : Seamless s t := h.of_suffix ⟨[c], rfl⟩
    rw [← ih hs, List.cons_append]
    -- a delimiter that begins at `c` would lie in `c :: s`, or across the seam
    rw [modeAfter]
    · rintro r rfl rfl hr
      rcases List.append_eq_append_iff.1 (show s ++ t = ['>'] ++ r from hr) with
        ⟨q, hq, ht⟩ | ⟨r', hs', -⟩
      · by_cases hq0 : q = []
        · exact hclose [] rfl rfl (by simpa [hq0] using hq.symm)
        · exact h.closing ('?' :: s) q (by rw [List.cons_append, ← hq]; rfl) (by simp) hq0
            List.suffix_rfl ⟨r, ht.symm⟩
      · exact hclose r' rfl rfl hs'
    · rintro r rfl rfl hr
      rcases List.append_eq_append_iff.1 (show s ++ t = ['?', 'p', 'h', 'p'] ++ r from hr) with
        ⟨q, hq, ht⟩ | ⟨r', hs', -⟩
      · by_cases hq0 : q = []
        · exact hopen [] rfl rfl (by simpa [hq0] using hq.symm)
        · exact h.opening ('<' :: s) q (by rw [List.cons_append, ← hq]; rfl) (by simp) hq0
            List.suffix_rfl ⟨r, ht.symm⟩
      · exact hopen r' rfl rfl hs'

/-- Read in mode `m`, the text has each delimiter in its own mode, and it ends in mode `n`. -/
structure Reads (m : Mode) (t : Text) (n : Mode) : Prop where
  closes : ∀ a b, t = a ++ closeTag ++ b → modeAfter m a = .code
  opens : ∀ a b, t = a ++ openTag ++ b → modeAfter m a = .markup
  reached : modeAfter m t = n

/-- Whether a text has neither the beginning of an opening delimiter nor a closing one. -/
structure TagFree (t : Text) : Prop where
  opening : Lacks "<?" t
  closing : Lacks closeTag t

theorem tagFree_iff {t : Text} : TagFree t ↔ Lacks "<?" t ∧ Lacks closeTag t :=
  ⟨fun h => ⟨h.opening, h.closing⟩, fun h => ⟨h.1, h.2⟩⟩

instance (t : Text) : Decidable (TagFree t) := decidable_of_iff _ tagFree_iff.symm

theorem TagFree.of_infix {s t : Text} (h : TagFree t) (hs : s <:+: t) : TagFree s :=
  ⟨h.opening.of_infix hs, h.closing.of_infix hs⟩

theorem TagFree.lacks_openTag {t : Text} (h : TagFree t) : Lacks openTag t :=
  fun hm => h.opening (List.IsInfix.trans ⟨[], ['p', 'h', 'p'], rfl⟩ hm)

/-- A text without question marks has no delimiter. -/
theorem tagFree_of_not_mem {t : Text} (h : '?' ∉ t) : TagFree t :=
  ⟨lacks_of_not_mem (by decide) h, lacks_of_not_mem (by decide) h⟩

theorem not_mem_of_allBlank {t : Text} (h : allBlank t = true) : '?' ∉ t := by
  intro hm
  have := List.all_eq_true.1 h _ hm
  exact absurd this (by decide)

theorem tagFree_of_allBlank {t : Text} (h : allBlank t = true) : TagFree t :=
  tagFree_of_not_mem (not_mem_of_allBlank h)

/-- A text without delimiters changes no mode. -/
theorem modeAfter_of_tagFree {m : Mode} {t : Text} (h : TagFree t) : modeAfter m t = m := by
  fun_induction modeAfter m t with
  | case1 => rfl
  | case2 s => exact absurd ⟨[], s, rfl⟩ h.closing
  | case3 s => exact absurd ⟨[], 'p' :: 'h' :: 'p' :: s, rfl⟩ h.opening
  | case4 m c s _ _ ih => exact ih (h.of_infix ⟨[c], [], by simp⟩)

theorem reads_of_tagFree {m : Mode} {t : Text} (h : TagFree t) : Reads m t m where
  closes a b e := absurd ⟨a, b, e.symm⟩ h.closing
  opens a b e := absurd ⟨a, b, e.symm⟩ h.lacks_openTag
  reached := modeAfter_of_tagFree h

/-- Nothing stands before a mark in a text that is the mark alone. -/
theorem eq_nil_of_eq_append {mark a b : Text} (e : mark = a ++ mark ++ b) : a = [] := by
  have := congrArg List.length e
  simp only [List.length_append] at this
  exact List.length_eq_zero_iff.1 (by omega)

theorem reads_openTag : Reads .markup openTag .code where
  closes a b e := absurd ⟨a, b, e.symm⟩ (lacks_of_not_mem (c := '>') (by decide) (by decide))
  opens a b e := by rw [eq_nil_of_eq_append e]; rfl
  reached := rfl

theorem reads_closeTag : Reads .code closeTag .markup where
  closes a b e := by rw [eq_nil_of_eq_append e]; rfl
  opens a b e := absurd ⟨a, b, e.symm⟩ (lacks_of_not_mem (c := 'p') (by decide) (by decide))
  reached := rfl

namespace Reads

variable {m n k : Mode} {s t : Text}

theorem append (hs : Reads m s n) (ht : Reads n t k) (h : Seamless s t) :
    Reads m (s ++ t) k where
  closes a b e := by
    rcases places_append h.closing e with ⟨b', hb, -⟩ | ⟨a', rfl, ha⟩
    · exact hs.closes a b' hb
    · have ha' : a' <+: t := ⟨closeTag ++ b, by rw [ha, List.append_assoc]⟩
      rw [modeAfter_append (h.of_prefix ha'), hs.reached]
      exact ht.closes a' b ha
  opens a b e := by
    rcases places_append h.opening e with ⟨b', hb, -⟩ | ⟨a', rfl, ha⟩
    · exact hs.opens a b' hb
    · have ha' : a' <+: t := ⟨openTag ++ b, by rw [ha, List.append_assoc]⟩
      rw [modeAfter_append (h.of_prefix ha'), hs.reached]
      exact ht.opens a' b ha
  reached := by rw [modeAfter_append h, hs.reached, ht.reached]

/-- A beginning of a text reads as the text does up to there. -/
theorem of_prefix (h : Reads m t n) (hs : s <+: t) : Reads m s (modeAfter m s) := by
  obtain ⟨r, rfl⟩ := hs
  refine ⟨fun a b e => h.closes a (b ++ r) ?_, fun a b e => h.opens a (b ++ r) ?_, rfl⟩
  · rw [e, List.append_assoc]
  · rw [e, List.append_assoc]

end Reads

end WidgetCompiler.Php
