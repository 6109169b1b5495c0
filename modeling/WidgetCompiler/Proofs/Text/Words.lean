import WidgetCompiler.Proofs.Text.Blank
import WidgetCompiler.Proofs.Text.Pieces
import WidgetCompiler.Proofs.Text.Seam

/-!
# Words with single spaces

Collapsing the blanks of a text keeps its words (`words_collapseBlanks`) and leaves nothing between
them but single spaces (`singleSpaced_collapseBlanks`).
-/

namespace WidgetCompiler.Text

/-- The text has no blanks but single spaces between its words, so that it stands on one line. -/
structure SingleSpaced (t : Text) : Prop where
  spaces : ∀ c ∈ t, isBlank c = true → c = ' '
  single : Lacks "  " t
  trimmed : trim t = t

variable {s t : Text} {ts : List Text}

theorem lacks_spaces_join (h : ∀ t ∈ ts, t ≠ [] ∧ ∀ c ∈ t, isBlank c = false) :
    Lacks "  " (join [' '] ts) := by
  have hword {t : Text} (ht : ∀ c ∈ t, isBlank c = false) : ' ' ∉ t := fun hc =>
    absurd (ht ' ' hc) (by decide)
  fun_induction join [' '] ts with
  | case1 => decide
  | case2 t => exact lacks_of_not_mem (c := ' ') (by decide) (hword (h t List.mem_cons_self).2)
  | case3 t u ts ih =>
    have hbehind := ih fun v hv => h v (List.mem_cons_of_mem t hv)
    have ht := hword (h t List.mem_cons_self).2
    obtain ⟨hu, hublank⟩ := h u (by simp)
    have hfront : Lacks "  " (t ++ [' ']) := by
      refine (lacks_of_not_mem (c := ' ') (by decide) ht).append (by decide) ?_
      refine apart_of_last fun c hc hmem => ht ?_
      obtain rfl : c = ' ' := by simpa using hmem
      exact List.mem_of_getLast? hc
    refine hfront.append hbehind (apart_of_head fun c hc hmem => ?_)
    obtain rfl : c = ' ' := by simpa using hmem
    rw [head?_join hu] at hc
    exact hword hublank (List.mem_of_mem_head? hc)

theorem singleSpaced_join (h : ∀ t ∈ ts, t ≠ [] ∧ ∀ c ∈ t, isBlank c = false) :
    SingleSpaced (join [' '] ts) where
  spaces c hc hblank := by
    rcases mem_join hc with hc | ⟨t, ht, hc⟩
    · exact List.mem_singleton.1 hc
    · exact absurd ((h t ht).2 c hc) (by simp [hblank])
  single := lacks_spaces_join h
  trimmed := trim_join [' '] fun t ht => ⟨(h t ht).1, trim_of_all_not_isBlank (h t ht).2⟩

theorem singleSpaced_collapseBlanks (t : Text) : SingleSpaced (collapseBlanks t) :=
  singleSpaced_join fun _ hword => of_mem_words hword

@[simp] theorem words_collapseBlanks (t : Text) : words (collapseBlanks t) = words t :=
  words_join fun _ hword => of_mem_words hword

@[simp] theorem allBlank_collapseBlanks (t : Text) : allBlank (collapseBlanks t) = allBlank t := by
  rw [Bool.eq_iff_iff, ← words_eq_nil_iff, ← words_eq_nil_iff, words_collapseBlanks]

end WidgetCompiler.Text
