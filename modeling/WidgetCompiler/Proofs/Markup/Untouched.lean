import WidgetCompiler.Markup.Sanitize
import WidgetCompiler.Proofs.Text.AnyCase
import WidgetCompiler.Proofs.Text.Pattern
import WidgetCompiler.Proofs.Text.Replace

/-!
# Markup with nothing to take out

Each pass of `sanitize` looks for pieces that begin with one of a few marks (`takenMarks`).  Markup
without these and without question marks is returned as it is, up to the blanks around it
(`sanitize_eq_self`).
-/

namespace WidgetCompiler.Markup

open Text

/-- The beginnings of all that is taken out of markup, but for instructions. -/
def takenMarks : List Text :=
  ["<!", "<html", "</html", "<head", "<body", "</body", "<style", "<script"]

section

variable {α : Type} {p : Pattern α} {mark t : Text}

/-- A mark that stands nowhere begins at no place. -/
theorem afterAnyCase?_eq_none_of_lacks (hascii : ∀ c ∈ t, isAscii c = true)
    (hmark : Lacks mark (lowerAscii t)) {a b : Text} (hab : t = a ++ b) :
    afterAnyCase? mark b = none := by
  have hb : b <:+ t := ⟨a, hab.symm⟩
  have hlower : lowerAscii b <:+: lowerAscii t := by
    rw [hab, lowerAscii_append]
    exact (List.suffix_append _ _).isInfix
  exact afterAnyCase?_eq_none (fun c hc => hascii c (hb.subset hc)) (Lacks.of_infix hmark hlower)

/-- A pattern that begins with a mark matches nowhere in a text without the mark. -/
theorem absent_of_lacks (hascii : ∀ c ∈ t, isAscii c = true) (hmark : Lacks mark (lowerAscii t))
    (hp : ∀ prev s, afterAnyCase? mark s = none → p prev s = none) : p.Absent t :=
  fun _ b hab _ prev => hp prev b (afterAnyCase?_eq_none_of_lacks hascii hmark hab)

/-- A longer mark is not there either. -/
theorem afterAnyCase?_append_eq_none {m n s : Text} (h : afterAnyCase? m s = none) :
    afterAnyCase? (m ++ n) s = none := by
  rw [afterAnyCase?_append, h, Option.bind_none]

theorem after?_eq_none_of_not_mem {c : Char} {s : Text} (hc : c ∈ mark) (hs : c ∉ s) :
    after? mark s = none := by
  refine Option.eq_none_iff_forall_ne_some.2 fun rest hrest => hs ?_
  rw [after?_eq_some.1 hrest]
  exact List.mem_append_left _ hc

end

namespace Sanitize

variable {t : Text}

/-- There is no comment in a text without `<!`. -/
theorem absent_comment (hascii : ∀ c ∈ t, isAscii c = true) (h : Lacks "<!" (lowerAscii t)) :
    comment.Absent t := by
  refine absent_of_lacks hascii h fun prev s hs => ?_
  have hnone : after? "<!--" s = none := by
    refine Option.eq_none_iff_forall_ne_some.2 fun rest hrest => ?_
    rw [after?_eq_some.1 hrest] at hs
    simp [afterAnyCase?, sameLetter] at hs
  rw [comment, hnone]

theorem absent_block {name : Text} (hascii : ∀ c ∈ t, isAscii c = true)
    (h : Lacks ('<' :: name) (lowerAscii t)) : (block name).Absent t := by
  refine absent_of_lacks hascii h fun prev s hs => ?_
  rw [block, hs]

theorem absent_pageTag (hascii : ∀ c ∈ t, isAscii c = true)
    (h : ∀ mark ∈ takenMarks, Lacks mark (lowerAscii t)) : pageTag.Absent t := by
  intro a b hab hb prev
  have hnone {mark : Text} (hmark : mark ∈ takenMarks) : afterAnyCase? mark b = none :=
    afterAnyCase?_eq_none_of_lacks hascii (h mark hmark) hab
  have hdoctype : documentType prev b = none := by
    have := afterAnyCase?_append_eq_none (n := "doctype") (hnone (by decide : ("<!" : Text) ∈ _))
    rw [documentType, show ("<!doctype" : Text) = ("<!" : Text) ++ ("doctype" : Text) from rfl, this]
  have hhead : block "head" prev b = none := by
    rw [block, show ('<' :: ("head" : Text)) = "<head" from rfl, hnone (by decide)]
  have htag {start : Text} (hstart : start ∈ takenMarks) : tagOf start prev b = none := by
    rw [tagOf, hnone hstart]
  rw [pageTag, hdoctype, hhead, htag (by decide), htag (by decide), htag (by decide),
    htag (by decide)]
  rfl

theorem absent_instruction (h : '?' ∉ t) : instruction.Absent t := by
  intro a b hab _ prev
  have hb : '?' ∉ b := fun hm => h (hab ▸ List.mem_append_right a hm)
  rw [instruction, after?_eq_none_of_not_mem (c := '?') (by decide) hb]

end Sanitize

open Sanitize in
/-- Markup without the marks is a fragment already. -/
theorem sanitize_eq_self {markup : Text} (hascii : ∀ c ∈ markup, isAscii c = true)
    (hquestion : '?' ∉ markup) (hmarks : ∀ mark ∈ takenMarks, Lacks mark (lowerAscii markup))
    (htrim : trim markup = markup) : sanitize markup = ⟨markup, [], []⟩ := by
  have hstyle : (block "style").Absent markup := absent_block hascii (hmarks _ (by decide))
  have hscript : (block "script").Absent markup := absent_block hascii (hmarks _ (by decide))
  have hreplace : replace "<?" "&lt;?" markup = markup :=
    replace_of_lacks (by decide) _ (lacks_of_not_mem (c := '?') (by decide) hquestion)
  simp only [sanitize, (absent_comment hascii (hmarks _ (by decide))).extract_eq, hstyle.extract_eq,
    hscript.extract_eq, (absent_pageTag hascii hmarks).extract_eq,
    (absent_instruction hquestion).extract_eq, hreplace, htrim]
  rfl

end WidgetCompiler.Markup
