import WidgetCompiler.Proofs.Text.Blank
import WidgetCompiler.Proofs.Text.Pieces

/-!
# Scanners

A scanner takes a text character by character until it stops: a step from state to state that fails
where the reading ends.  It stops at the first character at which its step fails
(`Scanner.stopAt_eq_some`), and a text that it can be run through does not stop it
(`Scanner.stopAt_append`).

A blank means the same in every state: it ends what the character before may have begun, and nothing
else.  So a text means to a scanner what it means without the blanks around it (`Scanner.run_trim`),
and lines mean what they mean written on one (`Scanner.run_join_trim`).
-/

namespace WidgetCompiler.Text

/-- A reader that takes a text character by character until it stops. -/
structure Scanner (σ : Type) where
  /-- The state behind a character, if the scanner does not stop there. -/
  step : σ → Char → Option σ
  /-- The state behind a blank. -/
  settle : σ → σ
  step_blank : ∀ m c, isBlank c = true → step m c = some (settle m)
  settle_settle : ∀ m, settle (settle m) = settle m

namespace Scanner

variable {σ : Type} (S : Scanner σ)

/-- The state behind a text, if the scanner does not stop in it. -/
def run (m : σ) (t : Text) : Option σ := t.foldlM S.step m

/-- The text up to the character at which the scanner stops, that character, and the text behind
it. -/
def stopAt (m : σ) : Text → Option (Text × Char × Text)
  | [] => none
  | c :: s =>
    match S.step m c with
    | none => some ([], c, s)
    | some m' => (stopAt m' s).map fun (t, d, rest) => (c :: t, d, rest)

variable {S} {m m' : σ} {c : Char} {s t rest gap : Text}

@[simp] theorem run_nil : S.run m [] = some m := rfl

theorem run_cons : S.run m (c :: t) = (S.step m c).bind fun m' => S.run m' t := List.foldlM_cons

theorem run_append : S.run m (s ++ t) = (S.run m s).bind fun m' => S.run m' t := List.foldlM_append

theorem run_append_of_run (h : S.run m s = some m') : S.run m (s ++ t) = S.run m' t := by
  rw [run_append, h]
  rfl

theorem stopAt_append (h : S.run m t = some m') (rest : Text) :
    S.stopAt m (t ++ rest)
      = (S.stopAt m' rest).map fun (u, d, behind) => (t ++ u, d, behind) := by
  induction t generalizing m with
  | nil =>
    obtain rfl : m = m' := Option.some.inj h
    simp
  | cons c t ih =>
    rw [run_cons] at h
    obtain ⟨m₁, hstep, ht⟩ := Option.bind_eq_some_iff.1 h
    rw [List.cons_append, stopAt, hstep]
    simp only [ih ht, Option.map_map]
    rfl

/-- A scanner stops where its step fails first. -/
theorem stopAt_eq_some : S.stopAt m s = some (t, c, rest)
    ↔ s = t ++ c :: rest ∧ ∃ m', S.run m t = some m' ∧ S.step m' c = none := by
  constructor
  · intro h
    induction s generalizing m t with
    | nil => simp [stopAt] at h
    | cons d s ih =>
      rw [stopAt] at h
      split at h
      · next hstep =>
        obtain ⟨rfl, rfl, rfl⟩ := by simpa using h
        exact ⟨rfl, m, rfl, hstep⟩
      · next m₁ hstep =>
        obtain ⟨⟨u, e, r⟩, hu, he⟩ := Option.map_eq_some_iff.1 h
        obtain ⟨rfl, rfl, rfl⟩ := by simpa using he
        obtain ⟨rfl, m', hrun, hstop⟩ := ih hu
        refine ⟨rfl, m', ?_, hstop⟩
        rw [run_cons, hstep]
        exact hrun
  · rintro ⟨rfl, m', hrun, hstop⟩
    rw [stopAt_append hrun, stopAt, hstop]
    simp

/-- A scanner that can be run through a text does not stop in it. -/
theorem stopAt_eq_none : S.stopAt m s = none ↔ ∃ m', S.run m s = some m' := by
  constructor
  · intro h
    induction s generalizing m with
    | nil => exact ⟨m, rfl⟩
    | cons d s ih =>
      rw [stopAt] at h
      split at h
      · simp at h
      · next m₁ hstep =>
        obtain ⟨m', hrun⟩ := ih (Option.map_eq_none_iff.1 h)
        refine ⟨m', ?_⟩
        rw [run_cons, hstep]
        exact hrun
  · rintro ⟨m', hrun⟩
    have hstop := stopAt_append hrun []
    rwa [List.append_nil] at hstop

/-! ### Blanks -/

theorem run_gap (hm : S.settle m = m) (h : allBlank gap = true) : S.run m gap = some m := by
  induction gap with
  | nil => rfl
  | cons c gap ih =>
    obtain ⟨hc, hgap⟩ : isBlank c = true ∧ allBlank gap = true := by simpa using h
    rw [run_cons, S.step_blank m c hc, hm]
    exact ih hgap

theorem run_gap_of_ne_nil (h : allBlank gap = true) (hne : gap ≠ []) :
    S.run m gap = some (S.settle m) := by
  cases gap with
  | nil => exact absurd rfl hne
  | cons c gap =>
    obtain ⟨hc, hgap⟩ : isBlank c = true ∧ allBlank gap = true := by simpa using h
    rw [run_cons, S.step_blank m c hc]
    exact run_gap (S.settle_settle m) hgap

/-- Blanks do not stop a scanner. -/
theorem stopAt_append_gap (h : S.stopAt m s = none) (hgap : allBlank gap = true) :
    S.stopAt m (s ++ gap) = none := by
  rw [stopAt_eq_none] at h ⊢
  obtain ⟨m', hrun⟩ := h
  rw [run_append_of_run hrun]
  by_cases hnil : gap = []
  · exact ⟨m', by rw [hnil, run_nil]⟩
  · exact ⟨_, run_gap_of_ne_nil hgap hnil⟩

/-- However many blanks there are behind a text, the state behind them is the same. -/
theorem run_append_gap {gap' : Text} (h : allBlank gap = true) (hne : gap ≠ [])
    (h' : allBlank gap' = true) (hne' : gap' ≠ []) :
    S.run m (t ++ gap) = S.run m (t ++ gap') := by
  have hrun (m : σ) : S.run m gap = S.run m gap' := by
    rw [run_gap_of_ne_nil h hne, run_gap_of_ne_nil h' hne']
  rw [run_append, run_append]
  simp only [hrun]

/-- With a blank behind it, a text can be trimmed. -/
theorem run_trim (hm : S.settle m = m) (h : allBlank gap = true) (hne : gap ≠ []) (t : Text) :
    S.run m (trim t ++ gap) = S.run m (t ++ gap) := by
  obtain ⟨behind, hbehind, ht⟩ := exists_trim_append t
  have hfront : S.run m (t.takeWhile isBlank) = some m := run_gap hm (allBlank_takeWhile t)
  calc S.run m (trim t ++ gap)
      = S.run m (trim t ++ (behind ++ gap)) :=
        run_append_gap h hne (by simp [hbehind, h]) (by simp [hne])
    _ = S.run m (trimStart t ++ gap) := by rw [← List.append_assoc, ← ht]
    _ = S.run m (t.takeWhile isBlank ++ (trimStart t ++ gap)) := (run_append_of_run hfront).symm
    _ = S.run m (t ++ gap) := by rw [← List.append_assoc, trimStart_append]

theorem settle_of_run_gap (h : allBlank gap = true) (hne : gap ≠ [])
    (hrun : S.run m (t ++ gap) = some m') : S.settle m' = m' := by
  rw [run_append] at hrun
  obtain ⟨m₁, -, hgap⟩ := Option.bind_eq_some_iff.1 hrun
  rw [run_gap_of_ne_nil h hne] at hgap
  obtain rfl := Option.some.inj hgap
  exact S.settle_settle m₁

/-- Pieces between line feeds mean to a scanner what they mean between spaces, trimmed and without the
empty ones. -/
theorem run_join_trim (hm : S.settle m = m) (h : allBlank gap = true) (hne : gap ≠ [])
    (pieces : List Text) :
    S.run m (join [' '] ((pieces.map trim).filter (! ·.isEmpty)) ++ gap)
      = S.run m (join ['\n'] pieces ++ gap) := by
  fun_induction join ['\n'] pieces generalizing m with
  | case1 => rfl
  | case2 t =>
    rw [← run_trim hm h hne t]
    cases htrim : trim t with
    | nil => simp [htrim, join]
    | cons c u => simp [htrim, join]
  | case3 t u ts ih =>
    have hfeed : S.run m (t ++ ['\n']) = S.run m (trim t ++ [' ']) := by
      have htrim : S.run m (trim t ++ ['\n']) = S.run m (t ++ ['\n']) := run_trim hm rfl (by simp) t
      rw [← htrim]
      exact run_append_gap rfl (by simp) rfl (by simp)
    have hrest : S.run m (t ++ ['\n'] ++ join ['\n'] (u :: ts) ++ gap)
        = (S.run m (trim t ++ [' '])).bind fun m' => S.run m'
          (join [' '] (((u :: ts).map trim).filter (! ·.isEmpty)) ++ gap) := by
      rw [List.append_assoc, run_append, hfeed]
      cases hrun : S.run m (trim t ++ [' ']) with
      | none => rfl
      | some m' => exact (ih (settle_of_run_gap rfl (by simp) hrun)).symm
    rw [hrest, List.map_cons]
    cases htrim : trim t with
    | nil =>
      have hspace : S.run m [' '] = some m := run_gap hm rfl
      rw [List.nil_append, hspace]
      rfl
    | cons c v =>
      rw [List.filter_cons_of_pos (by rfl), ← run_append]
      generalize ((u :: ts).map trim).filter (! ·.isEmpty) = kept
      cases kept with
      | nil =>
        rw [join, join, List.nil_append, List.append_assoc]
        exact run_append_gap h hne (by simp [h, isBlank]) (by simp)
      | cons w ws => simp [join]

end Scanner

end WidgetCompiler.Text
