import WidgetCompiler.Proofs.Text.AsciiCase
import WidgetCompiler.Proofs.Text.Seam
import WidgetCompiler.Text.Lowercase
import WidgetCompiler.Text.Pattern

/-!
# Marks in letters of any case

A mark that is looked for without regard to case is, in a text of ASCII, a mark in the text's lower
case.  So a text whose lower case lacks the mark has it at no place, and nothing that is written
behind the text brings it about if it begins with a character that the mark does not go on with.
-/

namespace WidgetCompiler.Text

variable {mark s rest : Text}

theorem afterAnyCase?_append (m n s : Text) :
    afterAnyCase? (m ++ n) s = (afterAnyCase? m s).bind (afterAnyCase? n) := by
  induction m generalizing s with
  | nil => rfl
  | cons c m ih =>
    cases s with
    | nil => rfl
    | cons d s =>
      simp only [List.cons_append, afterAnyCase?]
      split
      · exact ih s
      · rfl

/-- What is left behind a mark is an end of the text. -/
theorem suffix_of_afterAnyCase? (h : afterAnyCase? mark s = some rest) : rest <:+ s := by
  induction mark generalizing s with
  | nil =>
    obtain rfl : s = rest := by simpa [afterAnyCase?] using h
    exact List.suffix_rfl
  | cons m mark ih =>
    cases s with
    | nil => simp [afterAnyCase?] at h
    | cons c s =>
      simp only [afterAnyCase?] at h
      split at h
      · exact (ih h).trans (List.suffix_cons c s)
      · simp at h

/-- In ASCII a letter has no other form than its capital. -/
theorem toLower_of_sameLetter {m c : Char} (hc : isAscii c = true) (h : sameLetter m c = true) :
    c.toLower = m := by
  have hs : c ≠ 'ſ' := by
    rintro rfl
    exact absurd hc (by decide)
  have hk : c ≠ '\u212a' := by
    rintro rfl
    exact absurd hc (by decide)
  simpa [sameLetter, hs, hk] using h

/-- A mark that is no letter has no other form at all. -/
theorem eq_of_sameLetter {m c : Char} (hm : m.isLower = false) (h : sameLetter m c = true) :
    c = m := by
  have hlower : c.toLower = m := by
    simp only [sameLetter, Bool.or_eq_true, Bool.and_eq_true, beq_iff_eq] at h
    rcases h with (h | ⟨rfl, -⟩) | ⟨rfl, -⟩
    · exact h
    · exact absurd hm (by decide)
    · exact absurd hm (by decide)
  exact eq_of_toLower_eq hlower hm

/-- A mark that begins with another character than a letter begins with that character. -/
theorem afterAnyCase?_cons_of_ne {m c : Char} (hm : m.isLower = false) (hc : c ≠ m) (mark s : Text) :
    afterAnyCase? (m :: mark) (c :: s) = none := by
  rw [afterAnyCase?, if_neg fun h => hc (eq_of_sameLetter hm h)]

theorem prefix_of_afterAnyCase? (hs : ∀ c ∈ s, isAscii c = true)
    (h : afterAnyCase? mark s = some rest) : mark <+: lowerAscii s := by
  induction mark generalizing s with
  | nil => exact List.nil_prefix
  | cons m mark ih =>
    cases s with
    | nil => simp [afterAnyCase?] at h
    | cons c s =>
      simp only [afterAnyCase?] at h
      split at h
      · next hm =>
        have hlower := toLower_of_sameLetter (hs c (by simp)) hm
        have htail := ih (fun d hd => hs d (by simp [hd])) h
        rw [lowerAscii, List.map_cons, hlower]
        exact List.cons_prefix_cons.2 ⟨rfl, htail⟩
      · simp at h

/-- A text whose lower case lacks the mark does not have it at any of its places. -/
theorem afterAnyCase?_eq_none (hs : ∀ c ∈ s, isAscii c = true) (h : Lacks mark (lowerAscii s)) :
    afterAnyCase? mark s = none := by
  rw [Option.eq_none_iff_forall_ne_some]
  exact fun rest hrest => h (prefix_of_afterAnyCase? hs hrest).isInfix

/-- A mark that begins in a text ends in it if what follows begins with a character that the mark
does not go on with. -/
theorem isSome_of_afterAnyCase?_append {c : Char} (hne : s ≠ [])
    (hc : ∀ m ∈ mark.tail, sameLetter m c = false)
    (h : (afterAnyCase? mark (s ++ c :: rest)).isSome = true) :
    (afterAnyCase? mark s).isSome = true := by
  induction s generalizing mark with
  | nil => exact absurd rfl hne
  | cons d s ih =>
    cases mark with
    | nil => rfl
    | cons m mark =>
      simp only [List.cons_append, afterAnyCase?] at h ⊢
      split at h
      · next hm =>
        rw [if_pos hm]
        by_cases hs : s = []
        · subst hs
          cases mark with
          | nil => rfl
          | cons n mark =>
            have hn : sameLetter n c = false := hc n (by simp)
            simp [afterAnyCase?, hn] at h
        · exact ih hs (fun n hn => hc n (List.mem_of_mem_tail hn)) h
      · simp at h

end WidgetCompiler.Text
