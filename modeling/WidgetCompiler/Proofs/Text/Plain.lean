import WidgetCompiler.Proofs.Text.AsciiCase
import WidgetCompiler.Proofs.Text.Blank
import WidgetCompiler.Proofs.Text.Pieces

/-!
# Plain text

Plain text is what people write in titles and attributes: letters and digits of ASCII, spaces and
common marks, but nothing that opens a tag, a list or a call.  Words are the plain texts that names
are made of.
-/

namespace WidgetCompiler.Text

/-- The marks of plain text, and the space. -/
def plainMarks : Text := " .,:;!'-_/#%&=+"

/-- Whether a character can stand in plain text. -/
def isPlainChar (c : Char) : Bool := c.isAlphanum || decide (c ∈ plainMarks)

/-- Letters, digits, spaces and common marks. -/
def IsPlain (t : Text) : Prop := ∀ c ∈ t, isPlainChar c = true

/-- Letters, digits and underscores. -/
def IsWord (t : Text) : Prop := ∀ c ∈ t, (c.isAlphanum || c == '_') = true

instance (t : Text) : Decidable (IsPlain t) := List.decidableBAll _ t

instance (t : Text) : Decidable (IsWord t) := List.decidableBAll _ t

variable {s t : Text} {c : Char}

theorem isAscii_of_isPlainChar (h : isPlainChar c = true) : isAscii c = true := by
  rcases Bool.or_eq_true_iff.1 h with h | h
  · exact isAscii_of_isAlphanum h
  · have hmarks : ∀ c ∈ plainMarks, isAscii c = true := by decide
    exact hmarks c (of_decide_eq_true h)

theorem isPlainChar_toLower (h : isPlainChar c = true) : isPlainChar c.toLower = true := by
  rcases Bool.or_eq_true_iff.1 h with h | h
  · exact Bool.or_eq_true_iff.2 (.inl (isAlphanum_toLower h))
  · have hmarks : ∀ c ∈ plainMarks, isPlainChar c.toLower = true := by decide
    exact hmarks c (of_decide_eq_true h)

/-! ## Plain texts -/

namespace IsPlain

theorem not_mem (h : IsPlain t) (hc : isPlainChar c = false) : c ∉ t :=
  fun hm => Bool.false_ne_true (hc.symm.trans (h c hm))

theorem isAscii (h : IsPlain t) : ∀ c ∈ t, isAscii c = true :=
  fun c hc => isAscii_of_isPlainChar (h c hc)

end IsPlain

/-- In ASCII, only the letters A to Z have another lower case. -/
theorem lowercase_of_isAscii (h : ∀ c ∈ t, isAscii c = true) : lowercase t = lowerAscii t := by
  have along (before : List Char) : lowercaseAfter before t = lowerAscii t := by
    induction t generalizing before with
    | nil => rfl
    | cons c t ih =>
      have hc := h c (by simp)
      have hsigma : ¬ (c == Char.ofNat 0x3A3) = true := by
        intro e
        rw [eq_of_beq e] at hc
        exact absurd hc (by decide)
      rw [lowercaseAfter, ih (fun d hd => h d (by simp [hd])), if_neg hsigma, lowerChar, if_pos hc]
      rfl
  exact along []

theorem IsPlain.lowercase (h : IsPlain t) : IsPlain (lowercase t) := by
  rw [lowercase_of_isAscii h.isAscii]
  intro c hc
  obtain ⟨d, hd, rfl⟩ := List.mem_map.1 hc
  exact isPlainChar_toLower (h d hd)

/-! ## Words -/

namespace IsWord

theorem append (hs : IsWord s) (ht : IsWord t) : IsWord (s ++ t) :=
  fun c hc => (List.mem_append.1 hc).elim (hs c) (ht c)

theorem isPlain (h : IsWord t) : IsPlain t := by
  intro c hc
  rcases Bool.or_eq_true_iff.1 (h c hc) with hc | hc
  · exact Bool.or_eq_true_iff.2 (.inl hc)
  · rw [eq_of_beq hc]
    decide

end IsWord

end WidgetCompiler.Text
