import WidgetCompiler.Proofs.Text.Blank
import Mathlib.Data.List.Basic

/-!
# Pieces and lines

`splitOn` takes a text apart and `join` puts one together; both only move characters, so what the
pieces are made of is what the text is made of.  The lines of a text are its pieces between line
feeds, up to an empty one at the end (`pieces_eq_lines`), unless carriage returns come in.
-/

namespace WidgetCompiler.Text

variable {p : Char → Bool} {s t : Text} {c : Char}

/-! ## Splitting -/

theorem splitOn_cons_of_pos (h : p c = true) (s : Text) : splitOn p (c :: s) = [] :: splitOn p s := by
  rw [splitOn, if_pos h]

/-- The pieces, of which the first has one more character at its beginning. -/
def extendFirst (c : Char) : List Text → List Text
  | piece :: pieces => (c :: piece) :: pieces
  | [] => [[c]]

@[simp] theorem extendFirst_nil (c : Char) : extendFirst c [] = [[c]] := rfl

@[simp] theorem extendFirst_cons (c : Char) (piece : Text) (pieces : List Text) :
    extendFirst c (piece :: pieces) = (c :: piece) :: pieces := rfl

theorem extendFirst_ne_nil (c : Char) (pieces : List Text) : extendFirst c pieces ≠ [] := by
  cases pieces <;> simp

/-- A text before which characters stand that are not picked. -/
theorem splitOn_append (ht : ∀ c ∈ t, p c = false) (s : Text) :
    ∃ piece pieces, splitOn p s = piece :: pieces ∧ splitOn p (t ++ s) = (t ++ piece) :: pieces := by
  induction t with
  | nil =>
    obtain ⟨piece, pieces, h⟩ := List.exists_cons_of_ne_nil (splitOn_ne_nil p s)
    exact ⟨piece, pieces, h, h⟩
  | cons c t ih =>
    obtain ⟨piece, pieces, hs, hts⟩ := ih fun d hd => ht d (by simp [hd])
    refine ⟨piece, pieces, hs, ?_⟩
    have hc : ¬ p c = true := by simp [ht c (by simp)]
    rw [List.cons_append, splitOn, if_neg hc, hts]
    rfl

/-- Where no character is picked, there is one piece. -/
theorem splitOn_eq_singleton (ht : ∀ c ∈ t, p c = false) : splitOn p t = [t] := by
  obtain ⟨piece, pieces, hnil, hpieces⟩ := splitOn_append ht []
  obtain ⟨rfl, rfl⟩ : [] = piece ∧ [] = pieces := by simpa [splitOn] using hnil
  rwa [List.append_nil] at hpieces

/-- The first piece begins where the text does. -/
theorem head?_splitOn {piece : Text} {pieces : List Text} (h : splitOn p s = piece :: pieces) :
    ∀ c ∈ piece.head?, c ∈ s.head? := by
  intro c hc
  cases s with
  | nil =>
    obtain ⟨rfl, -⟩ : [] = piece ∧ [] = pieces := by simpa [splitOn] using h
    simp at hc
  | cons d s =>
    by_cases hd : p d = true
    · rw [splitOn_cons_of_pos hd] at h
      rw [← (List.cons.inj h).1] at hc
      simp at hc
    · obtain ⟨first, rest, -, hs⟩ := splitOn_append (t := [d]) (p := p) (by simpa using hd) s
      rw [← List.singleton_append, hs] at h
      rw [← (List.cons.inj h).1] at hc
      simpa using hc

/-- The first piece ends at the first character that is picked. -/
theorem splitOn_line (ht : ∀ c ∈ t, p c = false) (hc : p c = true) (s : Text) :
    splitOn p (t ++ c :: s) = t :: splitOn p s := by
  obtain ⟨piece, pieces, hs, hts⟩ := splitOn_append ht (c :: s)
  rw [splitOn_cons_of_pos hc] at hs
  obtain ⟨rfl, rfl⟩ := List.cons.inj hs
  rw [hts, List.append_nil]

/-- Pieces that were put together are pieces again. -/
theorem splitOn_join {ts : List Text} (hne : ts ≠ []) (hc : p c = true)
    (h : ∀ t ∈ ts, ∀ d ∈ t, p d = false) : splitOn p (join [c] ts) = ts := by
  fun_induction join [c] ts with
  | case1 => exact absurd rfl hne
  | case2 t => exact splitOn_eq_singleton (h t List.mem_cons_self)
  | case3 t u ts ih =>
    have hrest := ih (by simp) fun v hv => h v (List.mem_cons_of_mem t hv)
    rw [List.append_assoc, List.singleton_append, splitOn_line (h t List.mem_cons_self) hc, hrest]

/-- Putting the pieces together again. -/
theorem join_splitOn (c : Char) (s : Text) : join [c] (splitOn (· == c) s) = s := by
  induction s with
  | nil => rfl
  | cons d s ih =>
    obtain ⟨piece, pieces, hs⟩ := List.exists_cons_of_ne_nil (splitOn_ne_nil (· == c) s)
    rw [hs] at ih
    by_cases hd : (d == c) = true
    · obtain rfl : d = c := by simpa using hd
      rw [splitOn_cons_of_pos (p := (· == d)) hd, hs, join, ih]
      rfl
    · rw [splitOn, if_neg hd, hs]
      simp only
      cases pieces with
      | nil => simpa [join] using ih
      | cons next pieces =>
        rw [join, List.cons_append, List.cons_append]
        exact congrArg (d :: ·) ih

theorem mem_of_mem_splitOn {piece : Text} (h : piece ∈ splitOn p s) (hc : c ∈ piece) :
    c ∈ s ∧ p c = false := by
  induction s generalizing piece with
  | nil =>
    obtain rfl : piece = [] := by simpa [splitOn] using h
    simp at hc
  | cons d s ih =>
    by_cases hd : p d = true
    · rw [splitOn_cons_of_pos hd] at h
      rcases List.mem_cons.1 h with rfl | h
      · simp at hc
      · have := ih h hc
        exact ⟨List.mem_cons_of_mem _ this.1, this.2⟩
    · obtain ⟨first, pieces, hs, hds⟩ := splitOn_append (t := [d]) (p := p) (by simpa using hd) s
      rw [List.singleton_append] at hds
      rw [hds] at h
      rcases List.mem_cons.1 h with rfl | h
      · rcases List.mem_cons.1 hc with rfl | hc
        · exact ⟨by simp, by simpa using hd⟩
        · have := ih (by rw [hs]; simp) hc
          exact ⟨List.mem_cons_of_mem _ this.1, this.2⟩
      · have := ih (by rw [hs]; simp [h]) hc
        exact ⟨List.mem_cons_of_mem _ this.1, this.2⟩

/-- Together the pieces hold all that is not picked. -/
theorem flatten_splitOn (p : Char → Bool) (s : Text) : (splitOn p s).flatten = s.filter (!p ·) := by
  induction s with
  | nil => rfl
  | cons c s ih =>
    by_cases hc : p c = true
    · rw [splitOn_cons_of_pos hc, List.flatten_cons, List.nil_append, ih,
        List.filter_cons_of_neg (by simp [hc])]
    · obtain ⟨piece, pieces, hs⟩ := List.exists_cons_of_ne_nil (splitOn_ne_nil p s)
      rw [hs, List.flatten_cons] at ih
      rw [splitOn, if_neg hc, hs, List.filter_cons_of_pos (by simp [hc]), List.flatten_cons,
        List.cons_append, ih]

/-- No piece holds anything just if all characters are picked. -/
theorem filter_splitOn_eq_nil_iff :
    (splitOn p s).filter (! ·.isEmpty) = [] ↔ ∀ c ∈ s, p c = true := by
  have hflatten : (splitOn p s).filter (! ·.isEmpty) = [] ↔ (splitOn p s).flatten = [] := by
    simp [List.filter_eq_nil_iff]
  rw [hflatten, flatten_splitOn, List.filter_eq_nil_iff]
  simp

theorem length_splitOn (p : Char → Bool) (s : Text) : (splitOn p s).length = s.countP p + 1 := by
  induction s with
  | nil => rfl
  | cons c s ih =>
    by_cases hc : p c = true
    · rw [splitOn_cons_of_pos hc, List.length_cons, ih, List.countP_cons_of_pos hc]
    · obtain ⟨piece, pieces, hs⟩ := List.exists_cons_of_ne_nil (splitOn_ne_nil p s)
      rw [hs] at ih
      rw [splitOn, if_neg hc, hs, List.countP_cons_of_neg hc]
      exact ih

/-- The last piece holds all that follows the last character that is picked. -/
theorem exists_getLast?_splitOn (ht : ∀ c ∈ t, p c = false) (s : Text) :
    ∃ front, (splitOn p (s ++ t)).getLast? = some (front ++ t) := by
  induction s with
  | nil =>
    exact ⟨[], by rw [List.nil_append, splitOn_eq_singleton ht]; rfl⟩
  | cons c s ih =>
    obtain ⟨front, hlast⟩ := ih
    obtain ⟨piece, pieces, hs⟩ := List.exists_cons_of_ne_nil (splitOn_ne_nil p (s ++ t))
    rw [hs] at hlast
    by_cases hc : p c = true
    · refine ⟨front, ?_⟩
      rw [List.cons_append, splitOn_cons_of_pos hc, hs, List.getLast?_cons_cons, hlast]
    · rw [List.cons_append, splitOn, if_neg hc, hs]
      cases pieces with
      | nil =>
        obtain rfl : piece = front ++ t := by simpa using hlast
        exact ⟨c :: front, rfl⟩
      | cons next pieces =>
        refine ⟨front, ?_⟩
        rw [List.getLast?_cons_cons] at hlast ⊢
        exact hlast

/-! ## Lines -/

/-- Without carriage returns, the pieces between line feeds are the lines, and perhaps an empty
piece behind the last line feed. -/
theorem pieces_eq_lines (h : '\r' ∉ s) :
    splitOn (· == '\n') s = lines s ∨ splitOn (· == '\n') s = lines s ++ [[]] := by
  have hmem : ∀ piece ∈ splitOn (· == '\n') s, dropReturn piece = piece := by
    intro piece hpiece
    have hlast : piece.getLast? ≠ some '\r' := fun hl =>
      h (mem_of_mem_splitOn hpiece (List.mem_of_getLast? hl)).1
    rw [dropReturn, if_neg hlast]
  have hpieces := splitOn_ne_nil (· == '\n') s
  rw [lines]
  generalize splitOn (· == '\n') s = pieces at hmem hpieces ⊢
  obtain ⟨init, last, rfl⟩ := (List.eq_nil_or_concat pieces).resolve_left hpieces
  simp only [List.concat_eq_append] at hmem ⊢
  have hinit : init.map dropReturn = init := by
    refine (List.map_congr_left fun piece hp => ?_).trans (List.map_id init)
    exact hmem piece (List.mem_append_left _ hp)
  cases last with
  | nil => exact .inr (by simp [hinit])
  | cons c last => exact .inl (by simp [hinit])

/-- In front of a character of a text there are fewer line feeds than the text has lines. -/
theorem count_lt_length_lines (a : Text) {b : Text} (hb : b ≠ []) :
    a.count '\n' < (lines (a ++ b)).length := by
  have hlength := length_splitOn (· == '\n') (a ++ b)
  rw [List.countP_append] at hlength
  have hlines : (lines (a ++ b)).length = (splitOn (· == '\n') (a ++ b)).length - 1
      + (if ((splitOn (· == '\n') (a ++ b)).getLast?.getD []).isEmpty then 0 else 1) := by
    simp only [lines, List.length_append, List.length_map, List.length_dropLast]
    split <;> rfl
  have hcount : a.count '\n' = a.countP (· == '\n') := rfl
  by_cases hfeed : ∃ c ∈ b, (c == '\n') = true
  · have hpos : 0 < b.countP (· == '\n') := List.countP_pos_iff.2 hfeed
    omega
  · -- without a line feed behind it, the character stands in the last line
    have hplain : ∀ c ∈ b, (c == '\n') = false := fun c hc => Bool.eq_false_iff.2 fun h => hfeed ⟨c, hc, h⟩
    obtain ⟨front, hlast⟩ := exists_getLast?_splitOn hplain a
    have hsome : (front ++ b).isEmpty = false := by simp [hb]
    rw [hlast, Option.getD_some, hsome] at hlines
    simp only [Bool.false_eq_true, if_false] at hlines
    omega

/-- Lines that were put together are pieces again. -/
theorem splitOn_joinLines {ls : List Text} (h : ∀ l ∈ ls, '\n' ∉ l) (s : Text) :
    splitOn (· == '\n') (joinLines ls ++ s) = ls ++ splitOn (· == '\n') s := by
  induction ls with
  | nil => rfl
  | cons l ls ih =>
    have hl : ∀ c ∈ l, (c == '\n') = false := fun c hc =>
      beq_eq_false_iff_ne.2 fun e => h l (by simp) (e ▸ hc)
    rw [joinLines, List.append_assoc, List.cons_append, splitOn_line hl rfl,
      ih fun l' hl' => h l' (by simp [hl']), List.cons_append]

theorem lines_joinLines {ls : List Text} (h : ∀ l ∈ ls, '\n' ∉ l) :
    lines (joinLines ls) = ls.map dropReturn := by
  have hpieces : splitOn (· == '\n') (joinLines ls) = ls ++ [[]] := by
    have := splitOn_joinLines h []
    rwa [List.append_nil] at this
  rw [lines, hpieces]
  simp

/-- A text that ends a line is made of lines. -/
theorem exists_joinLines (h : s = [] ∨ s.getLast? = some '\n') :
    ∃ ls, s = joinLines ls ∧ ∀ l ∈ ls, '\n' ∉ l := by
  have hany (s : Text) : ∃ ls last, s = joinLines ls ++ last ∧ (∀ l ∈ ls, '\n' ∉ l) ∧ '\n' ∉ last := by
    induction s with
    | nil => exact ⟨[], [], rfl, by simp, by simp⟩
    | cons c s ih =>
      obtain ⟨ls, last, rfl, hls, hlast⟩ := ih
      by_cases hc : c = '\n'
      · exact ⟨[] :: ls, last, by rw [hc]; rfl, by simpa using hls, hlast⟩
      · cases ls with
        | nil => exact ⟨[], c :: last, rfl, by simp, by simpa using ⟨Ne.symm hc, hlast⟩⟩
        | cons l ls =>
          have hl : '\n' ∉ c :: l := by simpa using ⟨Ne.symm hc, hls l (by simp)⟩
          refine ⟨(c :: l) :: ls, last, rfl, fun l' hl' => ?_, hlast⟩
          rcases List.mem_cons.1 hl' with rfl | hl'
          · exact hl
          · exact hls l' (by simp [hl'])
  obtain ⟨ls, last, rfl, hls, hlast⟩ := hany s
  have hnil : last = [] := by
    rcases h with h | h
    · exact (List.append_eq_nil_iff.1 h).2
    · rcases List.eq_nil_or_concat last with hnil | ⟨init, c, rfl⟩
      · exact hnil
      · obtain rfl : c = '\n' := by simpa [← List.append_assoc] using h
        exact absurd (by simp) hlast
  exact ⟨ls, by rw [hnil, List.append_nil], hls⟩

/-! ## Joining -/

theorem mem_join {sep : Text} {ts : List Text} (h : c ∈ join sep ts) :
    c ∈ sep ∨ ∃ t ∈ ts, c ∈ t := by
  fun_induction join sep ts with
  | case1 => simp at h
  | case2 t => exact .inr ⟨t, by simp, h⟩
  | case3 t u ts ih =>
    rcases List.mem_append.1 h with h | h
    · rcases List.mem_append.1 h with h | h
      · exact .inr ⟨t, by simp, h⟩
      · exact .inl h
    · rcases ih h with h | ⟨t', ht', h⟩
      · exact .inl h
      · exact .inr ⟨t', List.mem_cons_of_mem _ ht', h⟩

/-- Collapsing blanks brings in nothing but spaces, and leaves no other blanks. -/
theorem mem_collapseBlanks (h : c ∈ collapseBlanks s) : (c ∈ s ∧ isBlank c = false) ∨ c = ' ' := by
  rcases mem_join h with h | ⟨word, hword, h⟩
  · exact .inr (by simpa using h)
  · exact .inl (mem_of_mem_splitOn (List.mem_filter.1 hword |>.1) h)

theorem head?_join {sep first : Text} (hne : first ≠ []) (others : List Text) :
    (join sep (first :: others)).head? = first.head? := by
  cases others with
  | nil => rfl
  | cons second others => rw [join, List.append_assoc, List.head?_append_of_ne_nil _ hne]

theorem join_ne_nil {sep first : Text} (hne : first ≠ []) (others : List Text) :
    join sep (first :: others) ≠ [] := by
  intro hnil
  rw [← List.head?_eq_none_iff, head?_join hne, List.head?_eq_none_iff] at hnil
  exact hne hnil

theorem getLast?_join {sep : Text} {ts : List Text} (h : ∀ t ∈ ts, t ≠ []) :
    ∀ c ∈ (join sep ts).getLast?, ∃ t ∈ ts, c ∈ t.getLast? := by
  fun_induction join sep ts with
  | case1 => simp
  | case2 t => exact fun c hc => ⟨t, by simp, hc⟩
  | case3 t u ts ih =>
    intro c hc
    rw [List.getLast?_append_of_ne_nil _ (join_ne_nil (h u (by simp)) ts)] at hc
    obtain ⟨v, hv, hc⟩ := ih (fun v hv => h v (List.mem_cons_of_mem _ hv)) c hc
    exact ⟨v, List.mem_cons_of_mem _ hv, hc⟩

/-- Pieces without blanks around them have none around them when they are joined. -/
theorem trim_join (sep : Text) {ts : List Text} (h : ∀ t ∈ ts, t ≠ [] ∧ trim t = t) :
    trim (join sep ts) = join sep ts := by
  cases ts with
  | nil => rfl
  | cons first others =>
    obtain ⟨hne, htrim⟩ := h first List.mem_cons_self
    refine trim_eq_self_iff.2 ⟨?_, fun c hc => ?_⟩
    · rw [head?_join hne]
      exact (trim_eq_self_iff.1 htrim).1
    · obtain ⟨t, ht, hc⟩ := getLast?_join (fun t ht => (h t ht).1) c hc
      exact (trim_eq_self_iff.1 (h t ht).2).2 c hc

/-! ## Words -/

/-- A word is not empty and has no blank in it. -/
theorem of_mem_words {word : Text} (h : word ∈ words s) : word ≠ [] ∧ ∀ c ∈ word, isBlank c = false := by
  obtain ⟨hword, hne⟩ := List.mem_filter.1 h
  exact ⟨by simpa using hne, fun c hc => (mem_of_mem_splitOn hword hc).2⟩

theorem words_eq_nil_iff : words s = [] ↔ allBlank s = true := by
  rw [words, filter_splitOn_eq_nil_iff, allBlank, List.all_eq_true]

/-- Words with a space between neighbours. -/
theorem words_join {ts : List Text} (h : ∀ t ∈ ts, t ≠ [] ∧ ∀ c ∈ t, isBlank c = false) :
    words (join [' '] ts) = ts := by
  by_cases hne : ts = []
  · rw [hne]
    rfl
  · rw [words, splitOn_join hne rfl fun t ht => (h t ht).2, List.filter_eq_self]
    exact fun t ht => by simpa using (h t ht).1

/-! ## Lines and their text -/

theorem mem_joinLines {ls : List Text} (h : c ∈ joinLines ls) : c = '\n' ∨ ∃ l ∈ ls, c ∈ l := by
  induction ls with
  | nil => simp [joinLines] at h
  | cons l ls ih =>
    rw [joinLines, List.mem_append, List.mem_cons] at h
    rcases h with h | rfl | h
    · exact .inr ⟨l, by simp, h⟩
    · exact .inl rfl
    · rcases ih h with h | ⟨l', hl', h⟩
      · exact .inl h
      · exact .inr ⟨l', List.mem_cons_of_mem _ hl', h⟩

/-- Lines that are put together with line feeds, and one more behind them. -/
theorem joinLines_eq_join {ls : List Text} (hne : ls ≠ []) : joinLines ls = join ['\n'] ls ++ ['\n'] := by
  fun_induction join ['\n'] ls with
  | case1 => exact absurd rfl hne
  | case2 l => rfl
  | case3 l l' ls ih => rw [joinLines, ih (by simp)]; simp

theorem infix_joinLines {ls : List Text} {l : Text} (h : l ∈ ls) : l <:+: joinLines ls := by
  induction ls with
  | nil => simp at h
  | cons l' ls ih =>
    rw [joinLines]
    rcases List.mem_cons.1 h with rfl | h
    · exact (List.prefix_append l _).isInfix
    · exact (ih h).trans ((List.suffix_cons '\n' _).trans (List.suffix_append l' _)).isInfix

/-! ## Distinct texts -/

theorem mem_of_mem_distinct {ts : List Text} : t ∈ distinct ts → t ∈ ts := by
  have along (ts seen : List Text) (h : t ∈ distinct.go seen ts) : t ∈ ts := by
    fun_induction distinct.go seen ts with
    | case1 => exact h
    | case2 seen u us _ ih => exact List.mem_cons_of_mem u (ih h)
    | case3 seen u us _ ih =>
      rcases List.mem_cons.1 h with rfl | h
      · exact List.mem_cons_self ..
      · exact List.mem_cons_of_mem u (ih h)
  exact along ts []

theorem mem_distinct_of_mem {ts : List Text} (h : t ∈ ts) : t ∈ distinct ts := by
  have along (ts seen : List Text) (h : t ∈ ts) (hseen : t ∉ seen) : t ∈ distinct.go seen ts := by
    fun_induction distinct.go seen ts with
    | case1 => exact h
    | case2 seen u us hu ih =>
      rcases List.mem_cons.1 h with rfl | h
      · exact absurd (List.contains_iff_mem.1 hu) hseen
      · exact ih h hseen
    | case3 seen u us _ ih =>
      by_cases htu : t = u
      · exact htu ▸ List.mem_cons_self ..
      · have h : t ∈ us := (List.mem_cons.1 h).resolve_left htu
        exact List.mem_cons_of_mem u (ih h fun hmem => (List.mem_cons.1 hmem).elim htu hseen)
  exact along ts [] h List.not_mem_nil

theorem distinct_of_nodup {ts : List Text} (h : ts.Nodup) : distinct ts = ts := by
  have along (ts seen : List Text) (h : ts.Nodup) (hseen : ∀ t ∈ ts, t ∉ seen) :
      distinct.go seen ts = ts := by
    fun_induction distinct.go seen ts with
    | case1 => rfl
    | case2 seen u us hu ih => exact absurd (List.contains_iff_mem.1 hu) (hseen u List.mem_cons_self)
    | case3 seen u us hu ih =>
      obtain ⟨hnew, hus⟩ := List.nodup_cons.1 h
      refine congrArg (u :: ·) (ih hus fun t ht hmem => ?_)
      rcases List.mem_cons.1 hmem with rfl | hmem
      · exact hnew ht
      · exact hseen t (List.mem_cons_of_mem _ ht) hmem
  exact along ts [] h fun _ _ => List.not_mem_nil

theorem mem_sortDistinct {ts : List Text} : t ∈ sortDistinct ts ↔ t ∈ ts := by
  rw [sortDistinct, List.mem_mergeSort]
  exact ⟨mem_of_mem_distinct, mem_distinct_of_mem⟩

end WidgetCompiler.Text
