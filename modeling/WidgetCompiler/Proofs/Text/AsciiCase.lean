import WidgetCompiler.Text.Basic
import WidgetCompiler.Text.Lowercase

/-!
# Letters and their case in ASCII

The classes of characters that core tests for are ranges of code points, and a change of case moves
the letters of one range to the other by 32 and leaves all else as it is.  With the ranges as
inequalities (`isUpper_iff`, `isLower_iff`, `isDigit_iff`) the facts about case are arithmetic.
-/

namespace WidgetCompiler.Text

variable {c d : Char}

theorem isUpper_iff : c.isUpper = true ↔ 65 ≤ c.toNat ∧ c.toNat ≤ 90 := by
  change decide ('A'.val ≤ c.val ∧ c.val ≤ 'Z'.val) = true ↔ _
  simp [UInt32.le_iff_toNat_le]

theorem isLower_iff : c.isLower = true ↔ 97 ≤ c.toNat ∧ c.toNat ≤ 122 := by
  change (decide ('a'.val ≤ c.val) && decide (c.val ≤ 'z'.val)) = true ↔ _
  simp [UInt32.le_iff_toNat_le]

theorem isDigit_iff : c.isDigit = true ↔ 48 ≤ c.toNat ∧ c.toNat ≤ 57 := by
  simp [Char.isDigit, UInt32.le_iff_toNat_le]

theorem toNat_toLower_of_isUpper (h : c.isUpper = true) : c.toLower.toNat = c.toNat + 32 := by
  have hc := isUpper_iff.1 h
  have hif : c.val ≥ 'A'.val ∧ c.val ≤ 'Z'.val := of_decide_eq_true h
  have hval : c.toLower.val = c.val + ('a'.val - 'A'.val) := congrArg Char.val (dif_pos hif)
  calc c.toLower.toNat = (c.val + ('a'.val - 'A'.val)).toNat := by rw [← hval]; rfl
    _ = (c.val.toNat + 32) % 2 ^ 32 := UInt32.toNat_add _ _
    _ = c.toNat + 32 := Nat.mod_eq_of_lt (by change c.toNat + 32 < _; omega)

theorem toLower_of_not_isUpper (h : c.isUpper = false) : c.toLower = c := by
  exact dif_neg fun hc => Bool.false_ne_true (h.symm.trans (decide_eq_true hc))

theorem toNat_toUpper_of_isLower (h : c.isLower = true) : c.toUpper.toNat + 32 = c.toNat := by
  have hc := isLower_iff.1 h
  have hif : 'a'.val ≤ c.val ∧ c.val ≤ 'z'.val :=
    (Bool.and_eq_true_iff.1 h).imp of_decide_eq_true of_decide_eq_true
  have hupper : c.toUpper = _ := dif_pos hif
  have hval : c.toUpper.val = c.val + ('A'.val - 'a'.val) := by rw [hupper]
  have hnat : c.toUpper.toNat = (c.toNat + (2 ^ 32 - 32)) % 2 ^ 32 :=
    calc c.toUpper.toNat = (c.val + ('A'.val - 'a'.val)).toNat := by rw [← hval]; rfl
      _ = _ := UInt32.toNat_add _ _
  omega

theorem toUpper_of_not_isLower (h : c.isLower = false) : c.toUpper = c := by
  refine dif_neg fun hc => Bool.false_ne_true (h.symm.trans ?_)
  exact Bool.and_eq_true_iff.2 (hc.imp decide_eq_true decide_eq_true)

/-- A character whose lower case is not a small letter has no other form. -/
theorem eq_of_toLower_eq (h : c.toLower = d) (hd : d.isLower = false) : c = d := by
  cases hc : c.isUpper with
  | false => rwa [toLower_of_not_isUpper hc] at h
  | true =>
    have hnat := toNat_toLower_of_isUpper hc
    have hrange := isUpper_iff.1 hc
    have : d.isLower = true := by
      rw [← h]
      exact isLower_iff.2 (by omega)
    exact absurd (this.symm.trans hd) (by decide)

theorem isAlphanum_iff : c.isAlphanum = true ↔
    (65 ≤ c.toNat ∧ c.toNat ≤ 90) ∨ (97 ≤ c.toNat ∧ c.toNat ≤ 122)
      ∨ (48 ≤ c.toNat ∧ c.toNat ≤ 57) := by
  change ((c.isUpper || c.isLower) || c.isDigit) = true ↔ _
  simp only [Bool.or_eq_true, isUpper_iff, isLower_iff, isDigit_iff, or_assoc]

theorem isAlphanum_toLower (h : c.isAlphanum = true) : c.toLower.isAlphanum = true := by
  cases hc : c.isUpper with
  | false => rwa [toLower_of_not_isUpper hc]
  | true =>
    have hnat := toNat_toLower_of_isUpper hc
    have hrange := isUpper_iff.1 hc
    exact isAlphanum_iff.2 (by omega)

theorem isAlphanum_toUpper (h : c.isAlphanum = true) : c.toUpper.isAlphanum = true := by
  cases hc : c.isLower with
  | false => rwa [toUpper_of_not_isLower hc]
  | true =>
    have hnat := toNat_toUpper_of_isLower hc
    have hrange := isLower_iff.1 hc
    exact isAlphanum_iff.2 (by omega)

theorem isAlpha_toUpper (h : c.isAlpha = true) : c.toUpper.isAlpha = true := by
  cases hc : c.isLower with
  | false => rwa [toUpper_of_not_isLower hc]
  | true =>
    have hnat := toNat_toUpper_of_isLower hc
    have hrange := isLower_iff.1 hc
    exact Bool.or_eq_true_iff.2 (.inl (isUpper_iff.2 (by omega)))

theorem isAlpha_of_isLower_toLower (h : c.toLower.isLower = true) : c.isAlpha = true := by
  cases hc : c.isUpper with
  | true => exact Bool.or_eq_true_iff.2 (.inl hc)
  | false =>
    rw [toLower_of_not_isUpper hc] at h
    exact Bool.or_eq_true_iff.2 (.inr h)

theorem isAlphanum_of_isAlpha (h : c.isAlpha = true) : c.isAlphanum = true := by
  exact Bool.or_eq_true_iff.2 (.inl h)

theorem isAscii_of_isAlphanum (h : c.isAlphanum = true) : isAscii c = true := by
  have := isAlphanum_iff.1 h
  refine decide_eq_true ?_
  omega

theorem isBlank_of_isAlphanum (h : c.isAlphanum = true) : isBlank c = false := by
  have := isAlphanum_iff.1 h
  simp only [isBlank, Bool.or_eq_false_iff, Bool.and_eq_false_iff, decide_eq_false_iff_not,
    beq_eq_false_iff_ne]
  omega

/-! ## Small letters and digits -/

theorem isAlphanum_of_small (h : (c.isLower || c.isDigit) = true) : c.isAlphanum = true := by
  rw [Bool.or_eq_true, isLower_iff, isDigit_iff] at h
  exact isAlphanum_iff.2 (by omega)

theorem small_toLower (h : c.isAlphanum = true) : (c.toLower.isLower || c.toLower.isDigit) = true := by
  have halnum := isAlphanum_iff.1 h
  rw [Bool.or_eq_true, isLower_iff, isDigit_iff]
  cases hc : c.isUpper with
  | true =>
    have hlower := toNat_toLower_of_isUpper hc
    have hupper := isUpper_iff.1 hc
    omega
  | false =>
    have hupper : ¬ (65 ≤ c.toNat ∧ c.toNat ≤ 90) := fun h => by simp [isUpper_iff.2 h] at hc
    rw [toLower_of_not_isUpper hc]
    omega

theorem toLower_of_small (h : (c.isLower || c.isDigit) = true) : c.toLower = c := by
  rw [Bool.or_eq_true, isLower_iff, isDigit_iff] at h
  refine toLower_of_not_isUpper (Bool.eq_false_iff.2 fun hc => ?_)
  have hupper := isUpper_iff.1 hc
  omega

theorem toLower_toUpper_of_small (h : (c.isLower || c.isDigit) = true) : c.toUpper.toLower = c := by
  cases hc : c.isLower with
  | false => rw [toUpper_of_not_isLower hc, toLower_of_small h]
  | true =>
    have hupper := toNat_toUpper_of_isLower hc
    have hlower := isLower_iff.1 hc
    have hcapital : c.toUpper.isUpper = true := isUpper_iff.2 (by omega)
    have hback := toNat_toLower_of_isUpper hcapital
    exact Char.toNat_inj.1 (by omega)

end WidgetCompiler.Text
