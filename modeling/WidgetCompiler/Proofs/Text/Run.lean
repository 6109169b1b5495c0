import WidgetCompiler.Text.Basic
import Mathlib.Data.List.Infix

/-!
# Runs of characters

A run is a stretch of characters that a test picks, up to one that it does not pick.  Reading takes
texts apart at the ends of runs (`takeWhile_run`, `dropWhile_run`, `cutAt?_run`), and a text can be
taken apart so in one way only (`run_inj`).
-/

namespace WidgetCompiler.Text

variable {p : Char → Bool} {a a' b b' : Text}

theorem takeWhile_run (ha : ∀ c ∈ a, p c = true) (hb : ∀ c ∈ b.head?, p c = false) :
    (a ++ b).takeWhile p = a := by
  have hstop : b.takeWhile p = [] := by
    cases b with
    | nil => rfl
    | cons c b => exact List.takeWhile_cons_of_neg (by simp [hb c rfl])
  rw [List.takeWhile_append_of_pos ha, hstop, List.append_nil]

theorem dropWhile_run (ha : ∀ c ∈ a, p c = true) (hb : ∀ c ∈ b.head?, p c = false) :
    (a ++ b).dropWhile p = b := by
  rw [List.dropWhile_append_of_pos ha]
  cases b with
  | nil => rfl
  | cons c b => exact List.dropWhile_cons_of_neg (by simp [hb c rfl])

/-- A text is cut behind what the test does not pick. -/
theorem cutAt?_run {c : Char} (ha : ∀ d ∈ a, p d = false) (hc : p c = true) :
    cutAt? p (a ++ c :: b) = some (a, b) := by
  induction a with
  | nil => simp [cutAt?, hc]
  | cons d a ih =>
    rw [List.cons_append, cutAt?, ha d (by simp), ih fun e he => ha e (by simp [he])]
    rfl

/-- A cut is at the first character that is picked, and loses nothing else. -/
theorem cutAt?_eq_some {s before rest : Text}
    (h : cutAt? p s = some (before, rest)) :
    ∃ c, p c = true ∧ s = before ++ c :: rest ∧ ∀ d ∈ before, p d = false := by
  induction s generalizing before with
  | nil => simp [cutAt?] at h
  | cons c s ih =>
    unfold cutAt? at h
    split at h
    · next hc =>
      obtain ⟨rfl, rfl⟩ := by simpa using h
      exact ⟨c, hc, rfl, by simp⟩
    · next hc =>
      obtain ⟨⟨b, r⟩, hb, he⟩ := Option.map_eq_some_iff.1 h
      obtain ⟨rfl, rfl⟩ := by simpa using he
      obtain ⟨d, hd, rfl, hbefore⟩ := ih hb
      refine ⟨d, hd, rfl, fun x hx => ?_⟩
      rcases List.mem_cons.1 hx with rfl | hx
      · simpa using hc
      · exact hbefore x hx

theorem cutAt?_of_not_picked (ha : ∀ d ∈ a, p d = false) : cutAt? p a = none := by
  refine Option.eq_none_iff_forall_ne_some.2 fun (before, rest) hcut => ?_
  obtain ⟨c, hc, rfl, -⟩ := cutAt?_eq_some hcut
  exact Bool.false_ne_true ((ha c (by simp)).symm.trans hc)

/-- Behind a text, what the test does not pick changes no cut. -/
theorem cutAt?_append (hb : ∀ d ∈ b, p d = false) (a : Text) :
    cutAt? p (a ++ b) = (cutAt? p a).map fun (before, rest) => (before, rest ++ b) := by
  induction a with
  | nil => exact cutAt?_of_not_picked hb
  | cons c a ih =>
    rw [List.cons_append, cutAt?, cutAt?, ih]
    split
    · rfl
    · rw [Option.map_map, Option.map_map]
      rfl

theorem run_inj (ha : ∀ c ∈ a, p c = true) (ha' : ∀ c ∈ a', p c = true)
    (hb : ∀ c ∈ b.head?, p c = false) (hb' : ∀ c ∈ b'.head?, p c = false)
    (h : a ++ b = a' ++ b') : a = a' ∧ b = b' := by
  have hrun : a = a' := by rw [← takeWhile_run ha hb, h, takeWhile_run ha' hb']
  subst hrun
  exact ⟨rfl, List.append_cancel_left h⟩

end WidgetCompiler.Text
