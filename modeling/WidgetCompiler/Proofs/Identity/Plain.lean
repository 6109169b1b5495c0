import WidgetCompiler.Proofs.Identity.Names
import WidgetCompiler.Proofs.Text.MadeOf

/-!
# The identity that values resolve to

Names are words that begin with a letter, whatever they are made from (`isName_of_normalizeName`),
and so are the names of classes.  All else of an identity is made of the characters of the given
values, besides those of words (`madeOf_resolve`), and so are the keywords that it gives.  In
particular, an identity is plain where the values are (`plain_resolve`).
-/

namespace WidgetCompiler

open Text Markup

/-- A word that begins with a letter. -/
structure IsName (t : Text) : Prop where
  word : IsWord t
  head : ∃ c ∈ t.head?, c.isAlpha = true

section

variable {q : Char → Bool} {s t raw name : Text}

theorem IsName.append (hs : IsName s) (ht : IsWord t) : IsName (s ++ t) where
  word := hs.word.append ht
  head := by
    obtain ⟨c, hc, halpha⟩ := hs.head
    exact ⟨c, by rw [List.head?_append, Option.mem_def.1 hc]; rfl, halpha⟩

/-! ## Names -/

theorem IsSnakeCase.isName (h : IsSnakeCase name) : IsName name := by
  obtain ⟨word, words, rfl, hall, c, hc, hlower⟩ := h
  refine ⟨fun d hd => ?_, c, ?_, Bool.or_eq_true_iff.2 (.inr hlower)⟩
  · rcases mem_join hd with hd | ⟨w, hw, hd⟩
    · obtain rfl := List.mem_singleton.1 hd
      decide
    · rw [(hall w hw).isAlphanum d hd, Bool.true_or]
  · rw [head?_join (hall word List.mem_cons_self).ne_nil]
    exact hc

/-- Whatever a name is made from, it is one. -/
theorem isName_of_normalizeName (h : normalizeName raw = some name) : IsName name :=
  (isSnakeCase_normalizeName h).isName

theorem isAlphanum_of_mem_nameWords (h : IsWord name) {word : Text} (hword : word ∈ nameWords name)
    {c : Char} (hc : c ∈ word) : c.isAlphanum = true := by
  obtain ⟨piece, hmem, rfl⟩ := List.mem_map.1 hword
  have hpiece : ∀ c ∈ piece, c.isAlphanum = true := by
    intro c hc
    obtain ⟨hmem, hline⟩ := mem_of_mem_splitOn (List.mem_filter.1 hmem).1 hc
    have := h c hmem
    rwa [hline, Bool.or_false] at this
  cases piece with
  | nil => simp [capitalize] at hc
  | cons d piece =>
    rcases List.mem_cons.1 hc with rfl | hc
    · exact isAlphanum_toUpper (hpiece d (by simp))
    · exact hpiece c (by simp [hc])

/-- A class is named by a name, too. -/
theorem isName_className {m : Identity} (h : IsName m.name) : IsName m.className := by
  have hwords : IsWord (nameWords m.name).flatten := by
    intro c hc
    obtain ⟨word, hword, hc⟩ := List.mem_flatten.1 hc
    rw [isAlphanum_of_mem_nameWords h.word hword hc, Bool.true_or]
  have hhead : ∃ c ∈ ((nameWords m.name).flatten).head?, c.isAlpha = true := by
    obtain ⟨c, hc, halpha⟩ := h.head
    obtain ⟨rest, hname⟩ := List.head?_eq_some_iff.1 hc
    have hline : (c == '_') = false := by
      refine beq_eq_false_iff_ne.2 ?_
      rintro rfl
      exact absurd halpha (by decide)
    obtain ⟨piece, pieces, -, hsplit⟩ := splitOn_append (t := [c]) (p := (· == '_'))
      (by simpa using hline) rest
    rw [List.singleton_append, ← hname] at hsplit
    refine ⟨c.toUpper, ?_, isAlpha_toUpper halpha⟩
    simp [nameWords, hsplit, capitalize]
  have hne : (nameWords m.name).flatten.isEmpty = false := by
    obtain ⟨c, hc, -⟩ := hhead
    obtain ⟨rest, hrest⟩ := List.head?_eq_some_iff.1 hc
    rw [hrest]
    rfl
  have hname : IsName (nameWords m.name).flatten := ⟨hwords, hhead⟩
  simp only [Identity.className, hne, Bool.false_eq_true, if_false]
  exact hname.append (by decide)

/-- The title that a name gives is made of its words. -/
theorem madeOf_titleOfName (hq : HoldsWords q) (h : IsWord name) : MadeOf q (titleOfName name) := by
  refine MadeOf.join (MadeOf.cons hq.space MadeOf.nil) fun word hword c hc => hq.word ?_
  rw [isAlphanum_of_mem_nameWords h hword hc, Bool.true_or]

/-! ## Identities -/

/-- All that is known is made of a kind of characters. -/
structure IdentityHints.MadeOf (q : Char → Bool) (h : IdentityHints) : Prop where
  name : ∀ v ∈ h.name, Text.MadeOf q v
  title : ∀ v ∈ h.title, Text.MadeOf q v
  description : ∀ v ∈ h.description, Text.MadeOf q v
  category : ∀ v ∈ h.category, Text.MadeOf q v
  icon : ∀ v ∈ h.icon, Text.MadeOf q v

/-- The widget is named by a name, and all else is made of a kind of characters. -/
structure Identity.MadeOf (q : Char → Bool) (m : Identity) : Prop where
  name : IsName m.name
  title : Text.MadeOf q m.title
  description : Text.MadeOf q m.description
  category : Text.MadeOf q m.category
  icon : Text.MadeOf q m.icon

/-- All that is known is plain. -/
structure IdentityHints.Plain (h : IdentityHints) : Prop where
  name : ∀ v ∈ h.name, IsPlain v
  title : ∀ v ∈ h.title, IsPlain v
  description : ∀ v ∈ h.description, IsPlain v
  category : ∀ v ∈ h.category, IsPlain v
  icon : ∀ v ∈ h.icon, IsPlain v

/-- The widget is named by a name, and all else is plain. -/
structure Identity.Plain (m : Identity) : Prop where
  name : IsName m.name
  title : IsPlain m.title
  description : IsPlain m.description
  category : IsPlain m.category
  icon : IsPlain m.icon

theorem Identity.Plain.isAscii {m : Identity} (h : m.Plain) : m.MadeOf Text.isAscii :=
  ⟨h.name, h.title.isAscii, h.description.isAscii, h.category.isAscii, h.icon.isAscii⟩

theorem madeOf_of_mem_nonBlank? {value : Option Text} (h : ∀ v ∈ value, MadeOf q v) :
    ∀ v ∈ nonBlank? value, MadeOf q v := by
  intro v hv
  obtain ⟨hv, -⟩ := Option.filter_eq_some_iff.1 hv
  obtain ⟨u, hu, rfl⟩ := Option.map_eq_some_iff.1 hv
  exact (h u hu).trim

theorem isName_of_resolveName {h : IdentityHints} (hname : h.resolveName = .ok name) :
    IsName name := by
  obtain ⟨raw, hraw⟩ := exists_of_resolveName hname
  exact isName_of_normalizeName hraw

/-- Values resolve to an identity that is made of what they, the defaults and words are made of. -/
theorem madeOf_resolve (hq : HoldsWords q) {hints : IdentityHints} (h : hints.MadeOf q)
    {settings : Settings} (hcategory : MadeOf q settings.defaultCategory)
    (hicon : MadeOf q settings.defaultIcon) {m : Identity} (hm : hints.resolve settings = .ok m) :
    m.MadeOf q := by
  unfold IdentityHints.resolve at hm
  split at hm
  · simp at hm
  · next name hname =>
    obtain rfl := Except.ok.inj hm
    have hname := isName_of_resolveName hname
    have htitle : MadeOf q (hints.resolveTitle name) := by
      refine MadeOf.getD (madeOf_of_mem_nonBlank? h.title) ?_
      split
      · exact hq.of_words (by decide)
      · exact madeOf_titleOfName hq hname.word
    have hdescription : MadeOf q (hints.resolveTitle name ++ " widget") :=
      htitle.append (hq.of_words (by decide))
    exact {
      name := hname
      title := htitle.collapseBlanks hq.space
      description :=
        (MadeOf.getD (madeOf_of_mem_nonBlank? h.description) hdescription).collapseBlanks hq.space
      category := MadeOf.getD (madeOf_of_mem_nonBlank? h.category) hcategory
      icon := MadeOf.getD (madeOf_of_mem_nonBlank? h.icon) hicon }

/-- The title stands on one line. -/
theorem not_mem_title_of_resolve {hints : IdentityHints} {settings : Settings} {m : Identity}
    (hm : hints.resolve settings = .ok m) : '\n' ∉ m.title := by
  unfold IdentityHints.resolve at hm
  split at hm
  · simp at hm
  · obtain rfl := Except.ok.inj hm
    intro hc
    rcases mem_collapseBlanks hc with ⟨-, hblank⟩ | hspace
    · exact absurd hblank (by decide)
    · exact absurd hspace (by decide)

/-- Plain values resolve to a plain identity, if the defaults are plain. -/
theorem plain_resolve {hints : IdentityHints} (h : hints.Plain) {settings : Settings}
    (hcategory : IsPlain settings.defaultCategory) (hicon : IsPlain settings.defaultIcon)
    {m : Identity} (hm : hints.resolve settings = .ok m) : m.Plain := by
  obtain ⟨hname, htitle, hdescription, hcategory, hicon⟩ := madeOf_resolve holdsWords_isPlainChar
    ⟨h.name, h.title, h.description, h.category, h.icon⟩ hcategory hicon hm
  exact ⟨hname, htitle, hdescription, hcategory, hicon⟩

/-- Keywords are words of the title in small letters, and tags. -/
theorem madeOf_keyword (hlower : ∀ {t}, MadeOf q t → MadeOf q (lowercase t)) {m : Identity}
    (hm : MadeOf q m.title) {forest : List Element} (hforest : ∀ e ∈ forest, MadeOf q e.tag)
    {max : Nat} {word : Text} (h : word ∈ m.keywords forest max) : MadeOf q word := by
  rcases List.mem_append.1 (mem_of_mem_distinct (List.mem_of_mem_take h)) with h | h
  · obtain ⟨piece, hpiece, rfl⟩ := List.mem_map.1 h
    exact hlower (hm.splitOn (List.mem_filter.1 hpiece).1)
  · obtain ⟨e, he, rfl⟩ := List.mem_map.1 h
    exact hforest e he

end

end WidgetCompiler
