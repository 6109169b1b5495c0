import WidgetCompiler.Proofs.Text.Seam

/-!
# Replacing

`replace` goes through a text from left to right.  Where the old text does not begin it goes on, so
a text without it stays as it is, and a text that is written piece by piece is replaced piece by
piece if no piece is read differently for what follows it.
-/

namespace WidgetCompiler.Text

theorem replace_append_self {old : Text} (hold : old ≠ []) (new rest : Text) :
    replace old new (old ++ rest) = new ++ replace old new rest := by
  cases old with
  | nil => exact absurd rfl hold
  | cons o os =>
    have hafter : after? (o :: os) (o :: (os ++ rest)) = some rest :=
      after?_append (o :: os) rest
    rw [List.cons_append, replace]
    simp [hafter]

/-- A character at which the old text does not begin passes. -/
theorem replace_cons {old : Text} (hold : old ≠ []) {new : Text} {c : Char} {s : Text}
    (h : ¬ old <+: c :: s) : replace old new (c :: s) = c :: replace old new s := by
  have hempty : old.isEmpty = false := by simpa using hold
  have hafter : after? old (c :: s) = none := by
    cases hc : after? old (c :: s) with
    | none => rfl
    | some rest => exact absurd ⟨rest, (after?_eq_some.1 hc).symm⟩ h
  rw [replace]
  simp [hempty, hafter]

/-- Where the old text does not stand there is nothing to replace. -/
theorem replace_of_lacks {old t : Text} (hold : old ≠ []) (new : Text) (h : Lacks old t) :
    replace old new t = t := by
  induction t with
  | nil =>
    have hempty : ¬ old.isEmpty = true := by simpa using hold
    rw [replace, if_neg hempty]
  | cons c t ih =>
    have ht : Lacks old t := h.of_infix (List.suffix_cons c t).isInfix
    rw [replace_cons hold fun hprefix => h hprefix.isInfix, ih ht]

/-- If the new text begins as the old one, the beginning stays. -/
theorem head?_replace {old new : Text} (hold : old ≠ []) (hnew : new.head? = old.head?) (t : Text) :
    (replace old new t).head? = t.head? := by
  cases t with
  | nil => rw [replace_of_lacks hold new (by simpa [Lacks] using hold)]
  | cons c t =>
    by_cases hprefix : old <+: c :: t
    · obtain ⟨rest, hrest⟩ := hprefix
      rw [← hrest, replace_append_self hold]
      obtain ⟨o, os, rfl⟩ := List.exists_cons_of_ne_nil hold
      obtain ⟨new, rfl⟩ := List.head?_eq_some_iff.1 hnew
      rfl
    · rw [replace_cons hold hprefix]
      rfl

/-- Replacing brings in nothing but what the new text is made of. -/
theorem mem_replace {old new t : Text} {c : Char} (h : c ∈ replace old new t) : c ∈ new ∨ c ∈ t := by
  fun_induction replace old new t with
  | case1 => exact .inl h
  | case2 => exact .inr h
  | case3 d t _ ih =>
    rcases List.mem_append.1 h with h | h
    · exact .inl h
    · rcases List.mem_cons.1 h with rfl | h
      · exact .inr (by simp)
      · exact (ih h).imp id (List.mem_cons_of_mem d)
  | case4 d t _ rest hrest _ ih =>
    rcases List.mem_append.1 h with h | h
    · exact .inl h
    · refine (ih h).imp id fun h => ?_
      rw [after?_eq_some.1 hrest]
      exact List.mem_append_right _ h
  | case5 => exact .inr h
  | case6 d t _ _ ih =>
    rcases List.mem_cons.1 h with rfl | h
    · exact .inr (by simp)
    · exact (ih h).imp id (List.mem_cons_of_mem d)

/-! ## Texts that are written piece by piece -/

/-- A piece of a text in which nothing is replaced, whatever follows it. -/
def Passes (old new piece : Text) : Prop :=
  ∀ rest, replace old new (piece ++ rest) = piece ++ replace old new rest

/-- What is written for a character is replaced by what is written for it otherwise. -/
theorem replace_flatMap {old new : Text} (hold : old ≠ []) {f g : Char → Text} {t : Text}
    (h : ∀ c ∈ t, (f c = old ∧ g c = new) ∨ (g c = f c ∧ Passes old new (f c))) :
    replace old new (t.flatMap f) = t.flatMap g := by
  induction t with
  | nil => cases old <;> simp_all [replace]
  | cons c t ih =>
    rw [List.flatMap_cons, List.flatMap_cons, ← ih fun d hd => h d (List.mem_cons_of_mem c hd)]
    rcases h c (List.mem_cons_self ..) with ⟨hf, hg⟩ | ⟨hg, hpasses⟩
    · rw [hf, hg, replace_append_self hold]
    · rw [hpasses, hg]

end WidgetCompiler.Text
