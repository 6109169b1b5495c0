import WidgetCompiler.Proofs.Markup.Escaping
import WidgetCompiler.Proofs.Text.Run

/-!
# Escaping and references

`escapeText` leaves an ampersand alone if a reference begins with it.  `IsReference` says what a
reference is, a name or a number between an ampersand and a semicolon, and `continuesReference` looks
for nothing else (`continuesReference_iff`).

Main statement: escaped text has none of the characters that end a text or a quoted value, each of its
ampersands begins a reference, escaping it again changes nothing, and it is read back as the text that was
escaped, if there was no reference in that (`escapeText_laws`).

The argument is that no character within a reference is escaped.  So a reference is one before and after
escaping (`continuesReference_escapeText`), and what escaping writes for a character is one as well.
-/

namespace WidgetCompiler.Markup

open Text

variable {s t : Text} {p : Char → Bool}

/-! ## References -/

/-- A name or a number between an ampersand and a semicolon. -/
inductive IsReference : Text → Prop
  | name {c : Char} {t : Text} : c.isAlpha = true → (∀ d ∈ t, d.isAlphanum = true) →
      IsReference ('&' :: c :: (t ++ [';']))
  | decimal {t : Text} : t ≠ [] → (∀ d ∈ t, d.isDigit = true) →
      IsReference ('&' :: '#' :: (t ++ [';']))
  | hexadecimal {x : Char} {t : Text} : x = 'x' ∨ x = 'X' → t ≠ [] →
      (∀ d ∈ t, isHexDigit d = true) → IsReference ('&' :: '#' :: x :: (t ++ [';']))

theorem afterClosedRun?_append (ht : ∀ d ∈ t, p d = true) (hne : t ≠ []) (hp : p ';' = false)
    (rest : Text) : afterClosedRun? p (t ++ ';' :: rest) = some rest := by
  have hstop : ∀ d ∈ (';' :: rest).head?, p d = false := by simpa using hp
  obtain ⟨c, t, rfl⟩ := List.exists_cons_of_ne_nil hne
  rw [afterClosedRun?, takeWhile_run ht hstop, dropWhile_run ht hstop]
  rfl

theorem of_isSome_afterClosedRun? (h : (afterClosedRun? p s).isSome = true) :
    ∃ t rest, t ≠ [] ∧ (∀ d ∈ t, p d = true) ∧ s = t ++ ';' :: rest := by
  unfold afterClosedRun? at h
  split at h
  · next c t rest hrun hrest =>
    refine ⟨c :: t, rest, by simp, fun d hd => ?_, ?_⟩
    · rw [← hrun] at hd
      exact List.all_eq_true.1 List.all_takeWhile d hd
    · rw [← hrun, ← hrest, List.takeWhile_append_dropWhile]
  · simp at h

/-- What stands behind an ampersand goes on with a reference if a reference begins with the ampersand. -/
theorem continuesReference_iff :
    continuesReference s = true ↔ ∃ r, IsReference r ∧ r <+: '&' :: s := by
  constructor
  · intro h
    unfold continuesReference at h
    split at h
    · obtain ⟨t, rest, hne, ht, rfl⟩ := of_isSome_afterClosedRun? h
      exact ⟨_, .hexadecimal (.inl rfl) hne ht, rest, by simp⟩
    · obtain ⟨t, rest, hne, ht, rfl⟩ := of_isSome_afterClosedRun? h
      exact ⟨_, .hexadecimal (.inr rfl) hne ht, rest, by simp⟩
    · obtain ⟨t, rest, hne, ht, rfl⟩ := of_isSome_afterClosedRun? h
      exact ⟨_, .decimal hne ht, rest, by simp⟩
    · next c s _ _ _ =>
      obtain ⟨hc, hrun⟩ := Bool.and_eq_true_iff.1 h
      obtain ⟨t, rest, hne, ht, hs⟩ := of_isSome_afterClosedRun? hrun
      obtain ⟨d, t, rfl⟩ := List.exists_cons_of_ne_nil hne
      obtain ⟨rfl, rfl⟩ := List.cons.inj hs
      exact ⟨_, .name hc fun d hd => ht d (List.mem_cons_of_mem _ hd), rest, by simp⟩
    · simp at h
  · rintro ⟨r, hr, rest, hrest⟩
    cases hr with
    | @name c t hc ht =>
      obtain rfl : c :: (t ++ ';' :: rest) = s := by simpa using hrest
      have hrun : afterClosedRun? Char.isAlphanum (c :: t ++ ';' :: rest) = some rest :=
        afterClosedRun?_append (by simpa [Char.isAlphanum, hc] using ht) (by simp) rfl rest
      have hhash : c ≠ '#' := by
        rintro rfl
        exact absurd hc (by decide)
      rw [continuesReference.eq_4 _ _ (fun _ h _ => hhash h) (fun _ h _ => hhash h) hhash, hc,
        ← List.cons_append, hrun]
      rfl
    | @decimal t hne ht =>
      obtain rfl : '#' :: (t ++ ';' :: rest) = s := by simpa using hrest
      have hrun := afterClosedRun?_append ht hne rfl rest
      obtain ⟨d, t, rfl⟩ := List.exists_cons_of_ne_nil hne
      have hd := ht d List.mem_cons_self
      rw [List.cons_append] at hrun ⊢
      rw [continuesReference.eq_3, hrun]
      · rfl
      · rintro u h
        obtain ⟨rfl, -⟩ := List.cons.inj h
        exact absurd hd (by decide)
      · rintro u h
        obtain ⟨rfl, -⟩ := List.cons.inj h
        exact absurd hd (by decide)
    | @hexadecimal x t hx hne ht =>
      obtain rfl : '#' :: x :: (t ++ ';' :: rest) = s := by simpa using hrest
      have hrun := afterClosedRun?_append ht hne rfl rest
      rcases hx with rfl | rfl <;> rw [continuesReference, hrun] <;> rfl

/-- No character of a reference but the ampersand is escaped. -/
theorem IsReference.not_mem_escaped {r : Text} (h : IsReference r) :
    ∃ body, r = '&' :: body ∧ ∀ c ∈ body, c ∉ escaped := by
  have hspecial : ∀ c ∈ escaped, c.isAlpha = false ∧ c.isAlphanum = false ∧ c.isDigit = false
      ∧ isHexDigit c = false ∧ c ≠ '#' ∧ c ≠ 'x' ∧ c ≠ 'X' ∧ c ≠ ';' := by decide
  have plain {q : Char → Bool} {c : Char} (hc : q c = true) (hq : c ∈ escaped → q c = false) :
      c ∉ escaped := fun hm => Bool.false_ne_true ((hq hm).symm.trans hc)
  cases h with
  | @name c t hc ht =>
    refine ⟨_, rfl, ?_⟩
    simp only [List.mem_cons, List.mem_append, List.not_mem_nil, or_false]
    rintro d (rfl | hd | rfl)
    · exact plain hc fun hm => (hspecial _ hm).1
    · exact plain (ht d hd) fun hm => (hspecial d hm).2.1
    · decide
  | @decimal t hne ht =>
    refine ⟨_, rfl, ?_⟩
    simp only [List.mem_cons, List.mem_append, List.not_mem_nil, or_false]
    rintro d (rfl | hd | rfl)
    · decide
    · exact plain (ht d hd) fun hm => (hspecial d hm).2.2.1
    · decide
  | @hexadecimal x t hx hne ht =>
    refine ⟨_, rfl, ?_⟩
    simp only [List.mem_cons, List.mem_append, List.not_mem_nil, or_false]
    rintro d (rfl | rfl | hd | rfl)
    · decide
    · rcases hx with rfl | rfl <;> decide
    · exact plain (ht d hd) fun hm => (hspecial d hm).2.2.2.1
    · decide

/-! ## Escaped text -/

/-- What goes on with a reference does so when it is escaped. -/
theorem continuesReference_escapeText (h : continuesReference s = true) :
    continuesReference (escapeText s) = true := by
  obtain ⟨r, hr, hbegins⟩ := continuesReference_iff.1 h
  obtain ⟨body, rfl, hbody⟩ := hr.not_mem_escaped
  obtain ⟨rest, hrest⟩ := hbegins
  obtain rfl : body ++ rest = s := by simpa using hrest
  rw [escapeText_append_of_not_mem hbody]
  exact continuesReference_iff.2 ⟨_, hr, List.prefix_append ('&' :: body) _⟩

/-- Whether each ampersand of the text begins a reference. -/
def ReferenceOnly (t : Text) : Prop := ∀ s, '&' :: s <:+ t → continuesReference s = true

namespace ReferenceOnly

theorem reference (h : continuesReference t = true) (ht : ReferenceOnly t) :
    ReferenceOnly ('&' :: t) := by
  intro s hs
  rcases List.suffix_cons_iff.1 hs with hs | hs
  · rwa [(List.cons.inj hs).2]
  · exact ht s hs

theorem append_left (hs : '&' ∉ s) (ht : ReferenceOnly t) : ReferenceOnly (s ++ t) := by
  induction s with
  | nil => exact ht
  | cons c s ih =>
    obtain ⟨hc, hs⟩ : '&' ≠ c ∧ '&' ∉ s := by simpa using hs
    intro u hu
    rcases List.suffix_cons_iff.1 hu with hu | hu
    · exact absurd (List.cons.inj hu).1 hc
    · exact ih hs u hu

end ReferenceOnly

theorem referenceOnly_escapeText (t : Text) : ReferenceOnly (escapeText t) := by
  induction t with
  | nil => simp [ReferenceOnly, escapeText]
  | cons c t ih =>
    have hreference (name : Text) (hname : '&' ∉ name)
        (h : continuesReference (name ++ escapeText t) = true) :
        ReferenceOnly ('&' :: name ++ escapeText t) := .reference h (ih.append_left hname)
    rw [escapeText]
    split
    · split
      · next h => exact .reference (continuesReference_escapeText h) ih
      · exact hreference "amp;" (by decide) rfl
    split
    · exact hreference "lt;" (by decide) rfl
    split
    · exact hreference "gt;" (by decide) rfl
    split
    · exact hreference "quot;" (by decide) rfl
    split
    · exact hreference "#039;" (by decide) rfl
    · next hc _ _ _ _ => exact ih.append_left (by simpa using Ne.symm hc)

/-- A text whose ampersands begin references, without the other characters that are escaped, stays as it
is. -/
theorem escapeText_of_referenceOnly (h : ReferenceOnly t) (hplain : ∀ c ∈ "<>\"'".toList, c ∉ t) :
    escapeText t = t := by
  induction t with
  | nil => rfl
  | cons c t ih =>
    have hrest : escapeText t = t :=
      ih (fun s hs => h s (hs.trans (List.suffix_cons c t)))
        fun d hd hm => hplain d hd (List.mem_cons_of_mem c hm)
    have hc : '<' ≠ c ∧ '>' ≠ c ∧ '"' ≠ c ∧ '\'' ≠ c := by
      have hspecial : ∀ d ∈ "<>\"'".toList, d ≠ c := fun d hd e => hplain d hd (e ▸ List.mem_cons_self)
      simpa using hspecial
    by_cases hamp : c = '&'
    · subst hamp
      rw [escapeText, hrest]
      simp [h t List.suffix_rfl]
    · rw [escapeText, hrest]
      simp [hamp, Ne.symm hc.1, Ne.symm hc.2.1, Ne.symm hc.2.2.1, Ne.symm hc.2.2.2]

/-- A text is without references if none of its ampersands begins one. -/
theorem referenceFree_iff : ReferenceFree t ↔ ∀ r, IsReference r → Lacks r t := by
  constructor
  · rintro h r hr ⟨before, after, hplace⟩
    obtain ⟨body, rfl, -⟩ := hr.not_mem_escaped
    have hsuffix : '&' :: (body ++ after) <:+ t := ⟨before, by simp [← hplace]⟩
    have hcontinues : continuesReference (body ++ after) = true :=
      continuesReference_iff.2 ⟨_, hr, List.prefix_append ('&' :: body) after⟩
    exact Bool.false_ne_true ((h _ hsuffix).symm.trans hcontinues)
  · refine fun h s hs => Bool.eq_false_iff.2 fun hc => ?_
    obtain ⟨r, hr, hbegins⟩ := continuesReference_iff.1 hc
    exact h r hr (hbegins.isInfix.trans hs.isInfix)

instance (t : Text) : Decidable (ReferenceFree t) :=
  decidable_of_iff (∀ u ∈ t.tails, u.head? = some '&' → continuesReference u.tail = false) <| by
    simp only [List.mem_tails]
    refine ⟨fun h s hs => h _ hs rfl, fun h u hu hhead => ?_⟩
    obtain ⟨s, rfl⟩ := List.head?_eq_some_iff.1 hhead
    exact h s hu

/-- Escaped text can stand in text and in quotes of either kind, each of its ampersands begins a
reference, escaping it again changes nothing, and it is read back as what was escaped, if there were no
references in that and no carriage return before a line feed. -/
theorem escapeText_laws (t : Text) :
    (∀ c ∈ "<>\"'".toList, c ∉ escapeText t)
    ∧ (∀ s, '&' :: s <:+ escapeText t → ∃ r, IsReference r ∧ r <+: '&' :: s)
    ∧ escapeText (escapeText t) = escapeText t
    ∧ ((∀ r, IsReference r → Lacks r t) → Lacks "\r\n" t → decodeCommon (escapeText t) = t) := by
  have hreferences := referenceOnly_escapeText t
  have hplain : ∀ c ∈ "<>\"'".toList, c ∉ escapeText t := fun _ => not_mem_escapeText
  refine ⟨hplain, fun s hs => continuesReference_iff.1 (hreferences s hs),
    escapeText_of_referenceOnly hreferences hplain, fun hfree hreturn => ?_⟩
  exact decodeCommon_escapeText (referenceFree_iff.2 hfree) hreturn

theorem escapeText_laws_ampersands : escapeText "A&B; \"&amp\" < &#x;\r&lt"
      = "A&B; &quot;&amp;amp&quot; &lt; &amp;#x;\r&amp;lt"
    ∧ (∀ s, '&' :: s <:+ escapeText "A&B; \"&amp\" < &#x;\r&lt" → ∃ r, IsReference r ∧ r <+: '&' :: s)
    ∧ (∀ r, IsReference r → Lacks r "A & B; \"&amp\" < &#x;\r&lt")
    ∧ Lacks "\r\n" "A & B; \"&amp\" < &#x;\r&lt"
    ∧ decodeCommon (escapeText "A & B; \"&amp\" < &#x;\r&lt") = "A & B; \"&amp\" < &#x;\r&lt" := by
  have hfree : ∀ r, IsReference r → Lacks r "A & B; \"&amp\" < &#x;\r&lt" :=
    referenceFree_iff.1 (by decide)
  have hreturn : Lacks "\r\n" "A & B; \"&amp\" < &#x;\r&lt" := by decide
  exact ⟨by decide, (escapeText_laws _).2.1, hfree, hreturn,
    (escapeText_laws _).2.2.2 hfree hreturn⟩

end WidgetCompiler.Markup
