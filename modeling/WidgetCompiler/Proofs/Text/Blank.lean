import WidgetCompiler.Text.Basic

/-!
# Blanks around a text

`trimStart` and `trimEnd` split a text into blanks and a rest that has none at that side.  The
lemmas say what they make of a text that is put together: blanks at the end change nothing
(`trimEnd_append_of_allBlank`), and what stands before a text with something in it stays
(`trimEnd_append_of_not_allBlank`).
-/

namespace WidgetCompiler.Text

variable {s t : Text} {c : Char}

@[simp] theorem allBlank_nil : allBlank [] = true := rfl

@[simp] theorem allBlank_cons : allBlank (c :: t) = (isBlank c && allBlank t) := rfl

@[simp] theorem allBlank_append : allBlank (s ++ t) = (allBlank s && allBlank t) := List.all_append

@[simp] theorem allBlank_reverse : allBlank t.reverse = allBlank t := List.all_reverse

theorem isBlank_of_mem (h : allBlank t = true) (hc : c ∈ t) : isBlank c = true :=
  List.all_eq_true.1 h c hc

theorem not_mem_of_allBlank_of_isBlank (h : allBlank t = true) (hc : isBlank c = false) : c ∉ t :=
  fun hm => Bool.false_ne_true (hc.symm.trans (isBlank_of_mem h hm))

theorem allBlank_takeWhile (t : Text) : allBlank (t.takeWhile isBlank) = true :=
  List.all_takeWhile

/-! ## The end of a text -/

@[simp] theorem trimEnd_nil : trimEnd [] = [] := rfl

/-- A text is what `trimEnd` leaves of it, with blanks behind that. -/
theorem exists_trimEnd (t : Text) : ∃ gap, allBlank gap = true ∧ t = trimEnd t ++ gap :=
  ⟨_, by rw [allBlank_reverse]; exact allBlank_takeWhile _, (trimEnd_append t).symm⟩

theorem trimEnd_append_of_allBlank (h : allBlank t = true) : trimEnd (s ++ t) = trimEnd s := by
  have hr : ∀ c ∈ t.reverse, isBlank c = true := fun c hc => isBlank_of_mem h (List.mem_reverse.1 hc)
  rw [trimEnd, List.reverse_append, List.dropWhile_append_of_pos hr, trimEnd]

theorem trimEnd_of_allBlank (h : allBlank t = true) : trimEnd t = [] :=
  trimEnd_append_of_allBlank (s := []) h

/-- A text that ends in a character that is not blank has no blanks at its end. -/
theorem trimEnd_append_singleton (h : isBlank c = false) : trimEnd (s ++ [c]) = s ++ [c] := by
  rw [trimEnd, List.reverse_append, List.reverse_singleton, List.singleton_append,
    List.dropWhile_cons_of_neg (by simp [h]), List.reverse_cons, List.reverse_reverse]

theorem trimEnd_of_getLast? (h : t.getLast? = some c) (hc : isBlank c = false) :
    trimEnd t = t := by
  obtain ⟨s, rfl⟩ := List.getLast?_eq_some_iff.1 h
  exact trimEnd_append_singleton hc

/-- What `trimEnd` leaves does not end in a blank. -/
theorem isBlank_of_mem_getLast?_trimEnd (h : c ∈ (trimEnd t).getLast?) : isBlank c = false := by
  rw [trimEnd, List.getLast?_reverse] at h
  have := List.head?_dropWhile_not isBlank t.reverse
  rw [Option.mem_def.1 h] at this
  simpa using this

theorem allBlank_of_trimEnd_eq_nil (h : trimEnd t = []) : allBlank t = true := by
  obtain ⟨gap, hgap, ht⟩ := exists_trimEnd t
  rw [ht, h, List.nil_append]
  exact hgap

theorem trimEnd_ne_nil (h : allBlank t = false) : trimEnd t ≠ [] :=
  fun e => Bool.false_ne_true (h.symm.trans (allBlank_of_trimEnd_eq_nil e))

/-- Behind a text only the blanks at the end of the next one are dropped. -/
theorem trimEnd_append_of_not_allBlank (h : allBlank t = false) :
    trimEnd (s ++ t) = s ++ trimEnd t := by
  obtain ⟨gap, hgap, ht⟩ := exists_trimEnd t
  obtain ⟨u, c, hu⟩ := (List.eq_nil_or_concat (trimEnd t)).resolve_left (trimEnd_ne_nil h)
  have hc : isBlank c = false :=
    isBlank_of_mem_getLast?_trimEnd (t := t) (by rw [hu]; simp)
  calc trimEnd (s ++ t) = trimEnd (s ++ trimEnd t ++ gap) := by rw [List.append_assoc, ← ht]
    _ = trimEnd (s ++ trimEnd t) := trimEnd_append_of_allBlank hgap
    _ = s ++ trimEnd t := by
      rw [hu, List.concat_eq_append, ← List.append_assoc, trimEnd_append_singleton hc]

/-! ## The beginning of a text -/

theorem trimStart_of_allBlank (h : allBlank t = true) : trimStart t = [] := by
  have hdrop : (t ++ []).dropWhile isBlank = [].dropWhile isBlank :=
    List.dropWhile_append_of_pos fun c hc => isBlank_of_mem h hc
  rwa [List.append_nil] at hdrop

theorem trimStart_ne_nil (h : allBlank t = false) : trimStart t ≠ [] := by
  intro hnil
  have ht := trimStart_append t
  rw [hnil, List.append_nil] at ht
  rw [← ht, allBlank_takeWhile] at h
  simp at h

/-- What `trimStart` leaves does not begin with a blank. -/
theorem isBlank_of_mem_head?_trimStart (h : c ∈ (trimStart t).head?) : isBlank c = false := by
  have := List.head?_dropWhile_not isBlank t
  rw [← trimStart, Option.mem_def.1 h] at this
  simpa using this

theorem trimStart_eq_self (h : ∀ c ∈ t.head?, isBlank c = false) : trimStart t = t := by
  cases t with
  | nil => rfl
  | cons c t => exact List.dropWhile_cons_of_neg (by simp [h c rfl])

/-! ## Both sides -/

theorem trimStart_append_of_allBlank (h : allBlank s = true) : trimStart (s ++ t) = trimStart t :=
  List.dropWhile_append_of_pos fun _ hc => isBlank_of_mem h hc

/-- A text with something in it, with blanks behind it. -/
theorem trimStart_append_of_not_allBlank (h : allBlank s = false) :
    trimStart (s ++ t) = trimStart s ++ t := by
  induction s with
  | nil => simp at h
  | cons c s ih =>
    simp only [trimStart, List.cons_append] at ih ⊢
    by_cases hc : isBlank c = true
    · rw [List.dropWhile_cons_of_pos hc, List.dropWhile_cons_of_pos hc]
      exact ih (by simpa [hc] using h)
    · rw [List.dropWhile_cons_of_neg hc, List.dropWhile_cons_of_neg hc, List.cons_append]

@[simp] theorem trim_nil : trim [] = [] := rfl

theorem trim_of_allBlank (h : allBlank t = true) : trim t = [] := by
  rw [trim, trimStart_of_allBlank h]
  rfl

/-- Blanks before a text are none of it. -/
theorem trim_append_left (h : allBlank s = true) : trim (s ++ t) = trim t := by
  rw [trim, trimStart_append_of_allBlank h, trim]

/-- Blanks behind a text are none of it. -/
theorem trim_append_right (h : allBlank t = true) : trim (s ++ t) = trim s := by
  cases hs : allBlank s with
  | true => rw [trim_append_left hs, trim_of_allBlank h, trim_of_allBlank hs]
  | false =>
    rw [trim, trimStart_append_of_not_allBlank hs, trimEnd_append_of_allBlank h, trim]

theorem exists_trim_append (t : Text) :
    ∃ gap, allBlank gap = true ∧ trimStart t = trim t ++ gap := exists_trimEnd (trimStart t)

/-- Each text stands between blanks. -/
theorem exists_trim (t : Text) :
    ∃ gap gap', allBlank gap = true ∧ allBlank gap' = true ∧ t = gap ++ trim t ++ gap' := by
  obtain ⟨gap', hgap', hend⟩ := exists_trimEnd (trimStart t)
  refine ⟨t.takeWhile isBlank, gap', allBlank_takeWhile t, hgap', ?_⟩
  rw [trim, List.append_assoc, ← hend, trimStart_append]

/-- What is not blank is kept. -/
theorem mem_trim (hc : c ∈ t) (h : isBlank c = false) : c ∈ trim t := by
  obtain ⟨gap, gap', hgap, hgap', ht⟩ := exists_trim t
  rw [ht, List.mem_append, List.mem_append] at hc
  rcases hc with (hc | hc) | hc
  · exact absurd hc (not_mem_of_allBlank_of_isBlank hgap h)
  · exact hc
  · exact absurd hc (not_mem_of_allBlank_of_isBlank hgap' h)

@[simp] theorem allBlank_trim (t : Text) : allBlank (trim t) = allBlank t := by
  obtain ⟨gap, gap', hgap, hgap', ht⟩ := exists_trim t
  have happend : allBlank t = (allBlank gap && allBlank (trim t) && allBlank gap') := by
    rw [← allBlank_append, ← allBlank_append, ← ht]
  simp [happend, hgap, hgap']

/-- What `trim` leaves does not begin with a blank. -/
theorem isBlank_of_mem_head?_trim (h : c ∈ (trim t).head?) : isBlank c = false := by
  obtain ⟨gap, -, hgap⟩ := exists_trim_append t
  refine isBlank_of_mem_head?_trimStart (t := t) ?_
  rw [hgap, List.head?_append, Option.mem_def.1 h]
  rfl

theorem trim_infix (t : Text) : trim t <:+: t := by
  have hend : trim t <+: trimStart t := ⟨_, trimEnd_append (trimStart t)⟩
  exact hend.isInfix.trans (List.dropWhile_suffix isBlank).isInfix

theorem allBlank_of_trim_eq_nil (h : trim t = []) : allBlank t = true := by
  have hrest : allBlank (trimStart t) = true := allBlank_of_trimEnd_eq_nil h
  rw [← trimStart_append t, allBlank_append, allBlank_takeWhile, hrest]
  rfl

/-- A text has no blanks around it if there are none at its ends. -/
theorem trim_eq_self_iff : trim t = t ↔ (∀ c ∈ t.head?, isBlank c = false)
    ∧ ∀ c ∈ t.getLast?, isBlank c = false := by
  constructor
  · intro h
    have hstart : trimStart t = t := by
      have hend : trim t <+: trimStart t := ⟨_, trimEnd_append (trimStart t)⟩
      refine (List.dropWhile_suffix isBlank).eq_of_length_le ?_
      exact Nat.le_trans (Nat.le_of_eq (congrArg List.length h.symm)) hend.length_le
    rw [trim, hstart] at h
    constructor
    · intro c hc
      rw [← hstart] at hc
      exact isBlank_of_mem_head?_trimStart hc
    · intro c hc
      rw [← h] at hc
      exact isBlank_of_mem_getLast?_trimEnd hc
  · rintro ⟨hfirst, hlast⟩
    rw [trim, trimStart_eq_self hfirst]
    cases hc : t.getLast? with
    | none =>
      obtain rfl := List.getLast?_eq_none_iff.1 hc
      rfl
    | some c => exact trimEnd_of_getLast? hc (hlast c hc)

@[simp] theorem trim_trim (t : Text) : trim (trim t) = trim t :=
  trim_eq_self_iff.2 ⟨fun _ => isBlank_of_mem_head?_trim,
    fun _ => isBlank_of_mem_getLast?_trimEnd (t := trimStart t)⟩

/-- What begins and ends with something else has no blanks around it. -/
theorem trim_cons_concat {d : Char} (hc : isBlank c = false) (hd : isBlank d = false) (t : Text) :
    trim (c :: t ++ [d]) = c :: t ++ [d] := by
  refine trim_eq_self_iff.2 ⟨fun e he => ?_, fun e he => ?_⟩
  · rwa [← Option.some.inj he]
  · rw [List.getLast?_concat] at he
    rwa [← Option.some.inj he]

/-- A character at the beginning that is not blank stays. -/
theorem head?_trim_cons (h : isBlank c = false) (t : Text) : (trim (c :: t)).head? = some c := by
  have hstart : trimStart (c :: t) = c :: t := List.dropWhile_cons_of_neg (by simp [h])
  have hblank : allBlank (c :: t) = false := by simp [h]
  obtain ⟨gap, -, hgap⟩ := exists_trimEnd (c :: t)
  rw [trim, hstart]
  obtain ⟨d, r, hr⟩ := List.exists_cons_of_ne_nil (trimEnd_ne_nil hblank)
  rw [hr] at hgap ⊢
  rw [(List.cons.inj hgap).1, List.head?_cons]

theorem trim_of_all_not_isBlank (h : ∀ c ∈ t, isBlank c = false) : trim t = t :=
  trim_eq_self_iff.2 ⟨fun c hc => h c (List.mem_of_mem_head? hc),
    fun c hc => h c (List.mem_of_getLast? hc)⟩

end WidgetCompiler.Text
