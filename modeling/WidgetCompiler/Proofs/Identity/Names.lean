import WidgetCompiler.Identity.Basic
import WidgetCompiler.Proofs.Text.AsciiCase
import WidgetCompiler.Proofs.Text.Pieces

/-!
# Names made from texts

A name is made of words: the stretches of letters and digits of a text in small letters, with one
word more in front if the first of them begins with a digit (`normalizeName_eq`).  So there is none
just if the text has no letter and no digit (`normalizeName_eq_none_iff`), and whatever the text,
the name is a sequence of words with single underscores between them (`isSnakeCase_normalizeName`).

A name has its own words, and so has the title that it gives, with spaces in place of the
underscores and capital letters.  Hence both give the name back (`normalizeName_of_isSnakeCase`,
`normalizeName_titleOfName`).
-/

namespace WidgetCompiler

open Text

/-- A word of a name: small letters and digits, and one of them at least. -/
structure IsNameWord (t : Text) : Prop where
  ne_nil : t ≠ []
  small : ∀ c ∈ t, (c.isLower || c.isDigit) = true

/-- Words of a name with single underscores between them, the first of which begins with a letter. -/
def IsSnakeCase (t : Text) : Prop :=
  ∃ word words, t = join ['_'] (word :: words) ∧ (∀ w ∈ word :: words, IsNameWord w)
    ∧ ∃ c ∈ word.head?, c.isLower = true

/-- The name of a class of widgets: letters and digits, a capital letter first, and a fixed end. -/
def IsClassName (t : Text) : Prop :=
  ∃ (c : Char) (rest : Text), t = c :: rest ++ "_Widget" ∧ c.isUpper = true
    ∧ ∀ d ∈ rest, d.isAlphanum = true

section

variable {raw name t word : Text} {words ts : List Text} {c : Char}

/-! ## Words -/

namespace IsNameWord

theorem isAlphanum (h : IsNameWord t) : ∀ c ∈ t, c.isAlphanum = true :=
  fun c hc => isAlphanum_of_small (h.small c hc)

theorem lowerAscii (h : IsNameWord t) : lowerAscii t = t :=
  (List.map_congr_left fun c hc => toLower_of_small (h.small c hc)).trans (List.map_id t)

theorem lowerAscii_capitalize (h : IsNameWord t) : Text.lowerAscii (capitalize t) = t := by
  cases t with
  | nil => exact absurd rfl h.ne_nil
  | cons c t =>
    obtain ⟨hc, ht⟩ := List.forall_mem_cons.1 h.small
    have hrest : Text.lowerAscii t = t :=
      (List.map_congr_left fun d hd => toLower_of_small (ht d hd)).trans (List.map_id t)
    exact congrArg₂ List.cons (toLower_toUpper_of_small hc) hrest

theorem capitalize (h : IsNameWord t) :
    WidgetCompiler.capitalize t ≠ [] ∧ ∀ c ∈ WidgetCompiler.capitalize t, c.isAlphanum = true := by
  cases t with
  | nil => exact absurd rfl h.ne_nil
  | cons c t =>
    obtain ⟨hc, ht⟩ := List.forall_mem_cons.1 h.isAlphanum
    exact ⟨by simp [WidgetCompiler.capitalize], List.forall_mem_cons.2 ⟨isAlphanum_toUpper hc, ht⟩⟩

end IsNameWord

/-- The words that a text gives a name. -/
def givenWords (raw : Text) : List Text :=
  ((splitOn (!Char.isAlphanum ·) raw).filter (! ·.isEmpty)).map lowerAscii

/-- The words with another one in front if a digit stands at the beginning. -/
def lettered (words : List Text) : List Text :=
  if words.head?.any (·.head?.any Char.isDigit) then "widget" :: words else words

theorem isNameWord_of_mem_givenWords (h : word ∈ givenWords raw) : IsNameWord word := by
  obtain ⟨piece, hpiece, rfl⟩ := List.mem_map.1 h
  obtain ⟨hsplit, hne⟩ := List.mem_filter.1 hpiece
  refine ⟨by simpa [lowerAscii] using hne, fun c hc => ?_⟩
  obtain ⟨d, hd, rfl⟩ := List.mem_map.1 hc
  exact small_toLower (by simpa using (mem_of_mem_splitOn hsplit hd).2)

theorem givenWords_eq_nil_iff : givenWords raw = [] ↔ ∀ c ∈ raw, c.isAlphanum = false := by
  rw [givenWords, List.map_eq_nil_iff, filter_splitOn_eq_nil_iff]
  simp

/-- Words that were put together are given again. -/
theorem givenWords_join (hc : c.isAlphanum = false)
    (h : ∀ t ∈ ts, t ≠ [] ∧ ∀ d ∈ t, d.isAlphanum = true) :
    givenWords (join [c] ts) = ts.map lowerAscii := by
  by_cases hne : ts = []
  · rw [hne]
    rfl
  · have hsplit : splitOn (!Char.isAlphanum ·) (join [c] ts) = ts :=
      splitOn_join hne (by simp [hc]) fun t ht d hd => by simp [(h t ht).2 d hd]
    have hkept : ts.filter (! ·.isEmpty) = ts :=
      List.filter_eq_self.2 fun t ht => by simpa using (h t ht).1
    rw [givenWords, hsplit, hkept]

theorem lowerAscii_join (sep : Text) (ts : List Text) :
    lowerAscii (join sep ts) = join (lowerAscii sep) (ts.map lowerAscii) := by
  fun_induction join sep ts with
  | case1 => rfl
  | case2 t => rfl
  | case3 t u ts ih => rw [lowerAscii_append, lowerAscii_append, ih]; rfl

/-- The name of a text by its words. -/
theorem normalizeName_eq (raw : Text) :
    normalizeName raw
      = if givenWords raw = [] then none else some (join ['_'] (lettered (givenWords raw))) := by
  unfold normalizeName
  cases hparts : (splitOn (!Char.isAlphanum ·) raw).filter (! ·.isEmpty) with
  | nil => simp [givenWords, hparts]
  | cons part parts =>
    have hpart : part ≠ [] := by
      have hmem : part ∈ (splitOn (!Char.isAlphanum ·) raw).filter (! ·.isEmpty) := by simp [hparts]
      simpa using (List.mem_filter.1 hmem).2
    have hwords : givenWords raw = lowerAscii part :: parts.map lowerAscii := by
      rw [givenWords, hparts, List.map_cons]
    have hjoin : lowerAscii (join ['_'] (part :: parts))
        = join ['_'] (lowerAscii part :: parts.map lowerAscii) := lowerAscii_join ['_'] (part :: parts)
    have hhead : (join ['_'] (lowerAscii part :: parts.map lowerAscii)).head? = (lowerAscii part).head? :=
      head?_join (by simpa [lowerAscii] using hpart) _
    simp only [hjoin, hhead, lettered, hwords, List.head?_cons, Option.any_some, reduceCtorEq,
      if_false]
    split <;> rfl

/-! ## Names -/

theorem normalizeName_eq_none_iff : normalizeName raw = none ↔ ∀ c ∈ raw, c.isAlphanum = false := by
  rw [normalizeName_eq, ← givenWords_eq_nil_iff]
  simp

/-- Whatever the text, its name is one. -/
theorem isSnakeCase_normalizeName (h : normalizeName raw = some name) : IsSnakeCase name := by
  rw [normalizeName_eq] at h
  split at h
  · simp at h
  · next hne =>
    obtain rfl := Option.some.inj h
    obtain ⟨word, words, hwords⟩ := List.exists_cons_of_ne_nil hne
    have hall : ∀ w ∈ word :: words, IsNameWord w :=
      fun w hw => isNameWord_of_mem_givenWords (hwords ▸ hw)
    obtain ⟨d, rest, rfl⟩ := List.exists_cons_of_ne_nil (hall word List.mem_cons_self).ne_nil
    rw [hwords, lettered]
    split
    · have hfirst : IsNameWord "widget" := ⟨by decide, by decide⟩
      exact ⟨_, _, rfl, List.forall_mem_cons.2 ⟨hfirst, hall⟩, 'w', rfl, rfl⟩
    · next hdigit =>
      have hsmall := (hall _ List.mem_cons_self).small d List.mem_cons_self
      have hnot : d.isDigit = false := by simpa using hdigit
      exact ⟨_, _, rfl, hall, d, rfl, by simpa [hnot] using hsmall⟩

/-- A text that gives the words of a name gives the name. -/
theorem normalizeName_of_givenWords (hwords : givenWords raw = word :: words)
    (hfirst : ∃ c ∈ word.head?, c.isLower = true) :
    normalizeName raw = some (join ['_'] (word :: words)) := by
  obtain ⟨c, hc, hlower⟩ := hfirst
  have hdigit : c.isDigit = false := by
    have hcode := isLower_iff.1 hlower
    exact Bool.eq_false_iff.2 fun h => by have := isDigit_iff.1 h; omega
  have hlettered : lettered (word :: words) = word :: words := by
    rw [lettered, List.head?_cons, Option.any_some, Option.mem_def.1 hc, Option.any_some, hdigit]
    rfl
  rw [normalizeName_eq, hwords, hlettered, if_neg (by simp)]

/-- A name is the name that it gives. -/
theorem normalizeName_of_isSnakeCase (h : IsSnakeCase name) : normalizeName name = some name := by
  obtain ⟨word, words, rfl, hall, hfirst⟩ := h
  refine normalizeName_of_givenWords ?_ hfirst
  rw [givenWords_join (by decide) fun w hw => ⟨(hall w hw).ne_nil, (hall w hw).isAlphanum⟩]
  exact (List.map_congr_left fun w hw => (hall w hw).lowerAscii).trans (List.map_id _)

/-- A name has the words that it was made of, with capital letters. -/
theorem nameWords_join (h : ∀ w ∈ words, IsNameWord w) :
    nameWords (join ['_'] words) = words.map capitalize := by
  by_cases hne : words = []
  · rw [hne]
    rfl
  · have hsplit : splitOn (· == '_') (join ['_'] words) = words := by
      refine splitOn_join hne rfl fun w hw c hc => beq_eq_false_iff_ne.2 ?_
      rintro rfl
      exact absurd ((h w hw).isAlphanum _ hc) (by decide)
    have hkept : words.filter (! ·.isEmpty) = words :=
      List.filter_eq_self.2 fun w hw => by simpa using (h w hw).ne_nil
    rw [nameWords, hsplit, hkept]

/-- The title that a name gives has the words of the name. -/
theorem normalizeName_titleOfName (h : IsSnakeCase name) :
    normalizeName (titleOfName name) = some name := by
  obtain ⟨word, words, rfl, hall, hfirst⟩ := h
  refine normalizeName_of_givenWords ?_ hfirst
  have hcapitals : ∀ t ∈ (word :: words).map capitalize, t ≠ [] ∧ ∀ c ∈ t, c.isAlphanum = true := by
    intro t ht
    obtain ⟨w, hw, rfl⟩ := List.mem_map.1 ht
    exact (hall w hw).capitalize
  rw [titleOfName, nameWords_join hall, givenWords_join (by decide) hcapitals, List.map_map]
  exact (List.map_congr_left fun w hw => (hall w hw).lowerAscii_capitalize).trans (List.map_id _)

/-- A title that a name gives is not blank. -/
theorem allBlank_titleOfName (h : IsSnakeCase name) : allBlank (titleOfName name) = false := by
  refine Bool.eq_false_iff.2 fun hblank => ?_
  have hnone : normalizeName (titleOfName name) = none := by
    refine normalizeName_eq_none_iff.2 fun c hc => Bool.eq_false_iff.2 fun halnum => ?_
    exact Bool.false_ne_true ((isBlank_of_isAlphanum halnum).symm.trans (List.all_eq_true.1 hblank c hc))
  rw [normalizeName_titleOfName h] at hnone
  exact Option.some_ne_none _ hnone

/-- The name of a widget is made from some text. -/
theorem exists_of_resolveName {h : IdentityHints} (hname : h.resolveName = .ok name) :
    ∃ raw, normalizeName raw = some name := by
  unfold IdentityHints.resolveName at hname
  split at hname
  · split at hname
    · next hnormal =>
      obtain rfl := Except.ok.inj hname
      exact ⟨_, hnormal⟩
    · simp at hname
  · obtain rfl := Except.ok.inj hname
    cases hnormal : (nonBlank? h.title).bind normalizeName with
    | none => exact ⟨defaultName, by decide⟩
    | some name =>
      obtain ⟨title, -, hnormal⟩ := Option.bind_eq_some_iff.1 hnormal
      exact ⟨title, hnormal⟩

/-- A class that is named for a name has the name of a class. -/
theorem isClassName_className {m : Identity} (h : IsSnakeCase m.name) : IsClassName m.className := by
  obtain ⟨word, words, hname, hall, c, hc, hlower⟩ := h
  obtain ⟨rest, rfl⟩ := List.head?_eq_some_iff.1 hc
  have hwords : (nameWords m.name).flatten = c.toUpper :: (rest ++ (words.map capitalize).flatten) := by
    rw [hname, nameWords_join hall]
    rfl
  obtain ⟨hfirst, hothers⟩ := List.forall_mem_cons.1 hall
  refine ⟨c.toUpper, rest ++ (words.map capitalize).flatten, ?_, ?_, fun d hd => ?_⟩
  · rw [Identity.className, hwords]
    rfl
  · have hcode := toNat_toUpper_of_isLower hlower
    have hrange := isLower_iff.1 hlower
    exact isUpper_iff.2 (by omega)
  · rcases List.mem_append.1 hd with hd | hd
    · exact hfirst.isAlphanum d (List.mem_cons_of_mem c hd)
    · obtain ⟨t, ht, hd⟩ := List.mem_flatten.1 hd
      obtain ⟨w, hw, rfl⟩ := List.mem_map.1 ht
      exact (hothers w hw).capitalize.2 d hd

end

end WidgetCompiler
