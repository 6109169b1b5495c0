import WidgetCompiler.Markup.Escape
import WidgetCompiler.Proofs.Text.Blank
import WidgetCompiler.Proofs.Text.Replace

/-!
# Reading escaped text back

`decodeCommon` takes the references of a text one kind after the other.  A text that was written by
`escapeText` is read back by it (`decodeCommon_escapeText`), unless there was something like a
reference in the text already, which escaping leaves alone.

The argument follows the kinds: at each of them, some characters are still written as references
and the others stand for themselves (`writtenIn`).  A kind is read without harm to the rest because
no reference begins within another one.
-/

namespace WidgetCompiler.Markup

open Text

/-! ## References between others -/

theorem passes_of_not_mem {o new piece : Text} (h : '&' ∉ piece) :
    Passes ('&' :: o) new piece := by
  intro rest
  induction piece with
  | nil => rfl
  | cons c piece ih =>
    obtain ⟨hc, hpiece⟩ : '&' ≠ c ∧ '&' ∉ piece := by simpa using h
    rw [List.cons_append, replace_cons (by simp), ih hpiece, List.cons_append]
    rintro ⟨r, hr⟩
    exact hc (List.cons.inj hr).1

/-- A reference passes that is neither a beginning of the old text nor begins with it. -/
theorem passes_of_not_prefix {o new p : Text} (hp : '&' ∉ p) (h : ¬ '&' :: o <+: '&' :: p)
    (h' : ¬ '&' :: p <+: '&' :: o) : Passes ('&' :: o) new ('&' :: p) := by
  intro rest
  rw [List.cons_append, replace_cons (by simp), passes_of_not_mem hp, List.cons_append]
  intro hprefix
  rcases List.prefix_or_prefix_of_prefix hprefix (List.prefix_append ('&' :: p) rest) with hr | hr
  · exact h hr
  · exact h' hr

/-! ## Escaped text -/

/-- The characters that are written as references. -/
def escaped : Text := "&<>\"'"

/-- A character as it is written in text. -/
def referenceOf (c : Char) : Text :=
  if c = '&' then "&amp;"
  else if c = '<' then "&lt;"
  else if c = '>' then "&gt;"
  else if c = '"' then "&quot;"
  else if c = '\'' then "&#039;"
  else [c]

/-- A character, written as a reference if it is one of the given ones. -/
def writtenIn (special : Text) (c : Char) : Text := if c ∈ special then referenceOf c else [c]

/-- Whether there is no ampersand in the text that begins something like a reference. -/
def ReferenceFree (t : Text) : Prop := ∀ s, '&' :: s <:+ t → continuesReference s = false

theorem escapeText_eq_flatMap {t : Text} (h : ReferenceFree t) :
    escapeText t = t.flatMap referenceOf := by
  induction t with
  | nil => rfl
  | cons c t ih =>
    have ht : ReferenceFree t := fun s hs => h s (hs.trans (List.suffix_cons c t))
    rw [escapeText, List.flatMap_cons, ih ht, referenceOf]
    by_cases hc : c = '&'
    · subst hc
      simp [h t List.suffix_rfl]
    · simp [hc]

theorem referenceOf_of_not_mem {c : Char} (h : c ∉ escaped) : referenceOf c = [c] := by
  have : c ≠ '&' ∧ c ≠ '<' ∧ c ≠ '>' ∧ c ≠ '"' ∧ c ≠ '\'' := by simpa [escaped] using h
  simp [referenceOf, this]

theorem referenceOf_ne_nil (c : Char) : referenceOf c ≠ [] := by
  by_cases he : c ∈ escaped
  · have : ∀ c ∈ escaped, referenceOf c ≠ [] := by decide
    exact this c he
  · simp [referenceOf_of_not_mem he]

theorem writtenIn_escaped (c : Char) : writtenIn escaped c = referenceOf c := by
  unfold writtenIn
  split
  · rfl
  · next h => exact (referenceOf_of_not_mem h).symm

/-- One kind of references is read: it suffices to look at the characters that are written as
references. -/
theorem replace_writtenIn (special special' o new : Text)
    (hspecial : special ⊆ escaped) (hspecial' : special' ⊆ escaped)
    (h : ∀ c ∈ escaped, (writtenIn special c = '&' :: o ∧ writtenIn special' c = new) ∨
      (writtenIn special' c = writtenIn special c ∧ '&' ∉ (writtenIn special c).tail
        ∧ ¬ '&' :: o <+: writtenIn special c ∧ ¬ writtenIn special c <+: '&' :: o))
    (t : Text) :
    replace ('&' :: o) new (t.flatMap (writtenIn special)) = t.flatMap (writtenIn special') := by
  refine replace_flatMap (by simp) fun c _ => ?_
  by_cases hc : c ∈ escaped
  · refine (h c hc).imp_right fun ⟨hsame, htail, hprefix, hprefix'⟩ => ⟨hsame, ?_⟩
    cases hw : writtenIn special c with
    | nil => exact fun _ => rfl
    | cons d p =>
      rw [hw] at htail hprefix hprefix'
      by_cases hd : d = '&'
      · subst hd
        exact passes_of_not_prefix htail hprefix hprefix'
      · exact passes_of_not_mem (by simpa [Ne.symm hd] using htail)
  · have hplain (s : Text) (hs : s ⊆ escaped) : writtenIn s c = [c] :=
      if_neg fun hm => hc (hs hm)
    rw [hplain special hspecial, hplain special' hspecial']
    refine .inr ⟨rfl, passes_of_not_mem fun hm => hc ?_⟩
    rw [← List.mem_singleton.1 hm]
    decide

/-- What is written for a character begins with a line feed only if the character is one. -/
theorem head?_referenceOf {c : Char} (h : '\n' ∈ (referenceOf c).head?) : c = '\n' := by
  by_cases he : c ∈ escaped
  · have : ∀ c ∈ escaped, '\n' ∉ (referenceOf c).head? := by decide
    exact absurd h (this c he)
  · rw [referenceOf_of_not_mem he] at h
    simpa using h

/-- Escaping brings no line feed behind a carriage return. -/
theorem lacks_returnFeed_flatMap {t : Text} (h : Lacks "\r\n" t) :
    Lacks "\r\n" (t.flatMap referenceOf) := by
  induction t with
  | nil => decide
  | cons c t ih =>
    have hrest := ih (h.of_infix (List.suffix_cons c t).isInfix)
    rw [List.flatMap_cons]
    by_cases he : c ∈ escaped
    · have hspecial : ∀ c ∈ escaped, '\r' ∉ referenceOf c := by decide
      have hreturn := hspecial c he
      refine (lacks_of_not_mem (by simp) hreturn).append hrest (apart_of_last fun d hd hm => hreturn ?_)
      obtain rfl : d = '\r' := List.mem_singleton.1 hm
      exact List.mem_of_getLast? hd
    · rw [referenceOf_of_not_mem he]
      have hone : Lacks "\r\n" [c] := h.of_infix (List.prefix_append [c] t).isInfix
      by_cases hc : c = '\r'
      · -- what follows the carriage return begins with no line feed, escaped or not
        subst hc
        refine hone.append hrest (apart_of_head fun d hd hm => ?_)
        obtain rfl : d = '\n' := List.mem_singleton.1 hm
        cases t with
        | nil => simp at hd
        | cons d t =>
          rw [List.flatMap_cons, List.head?_append_of_ne_nil _ (referenceOf_ne_nil d)] at hd
          exact h ⟨[], t, by simp [head?_referenceOf hd]⟩
      · refine hone.append hrest (apart_of_last fun d hd hm => hc ?_)
        obtain rfl : c = d := by simpa using hd
        exact List.mem_singleton.1 hm

/-- Escaped text is read back. -/
theorem decodeCommon_escapeText {t : Text} (h : ReferenceFree t) (hreturn : Lacks "\r\n" t) :
    decodeCommon (escapeText t) = t := by
  have hreferences : t.flatMap (writtenIn escaped) = t.flatMap referenceOf :=
    congrArg t.flatMap (funext writtenIn_escaped)
  have hwritten : escapeText t = t.flatMap (writtenIn escaped) := by
    rw [escapeText_eq_flatMap h, hreferences]
  have hno : Lacks "\r\n" (t.flatMap (writtenIn escaped)) := by
    rw [hreferences]
    exact lacks_returnFeed_flatMap hreturn
  have hall : escaped ⊆ escaped := List.Subset.refl _
  -- the kinds in their order; the characters that are still written as references get fewer
  have hnbsp := replace_writtenIn escaped escaped "nbsp;" "\u00a0" hall hall (by decide) t
  have hlt := replace_writtenIn escaped "&>\"'" "lt;" "<" hall (by decide) (by decide) t
  have hgt := replace_writtenIn "&>\"'" "&\"'" "gt;" ">" (by decide) (by decide) (by decide) t
  have hquot := replace_writtenIn "&\"'" "&'" "quot;" "\"" (by decide) (by decide) (by decide) t
  have hshort := replace_writtenIn "&'" "&'" "#39;" "'" (by decide) (by decide) (by decide) t
  have hapos := replace_writtenIn "&'" "&" "#039;" "'" (by decide) (by decide) (by decide) t
  have hnamed := replace_writtenIn "&" "&" "apos;" "'" (by decide) (by decide) (by decide) t
  have hamp := replace_writtenIn "&" [] "amp;" "&" (by decide) (by decide) (by decide) t
  have hnone : t.flatMap (writtenIn []) = t := by
    have : writtenIn [] = fun c => [c] := funext fun c => if_neg (List.not_mem_nil)
    rw [this, List.flatMap_singleton']
  rw [hwritten]
  calc decodeCommon (t.flatMap (writtenIn escaped))
      = replace ('&' :: "amp;") "&" (replace ('&' :: "apos;") "'" (replace ('&' :: "#039;") "'"
          (replace ('&' :: "#39;") "'" (replace ('&' :: "quot;") "\"" (replace ('&' :: "gt;") ">"
            (replace ('&' :: "lt;") "<" (replace ('&' :: "nbsp;") "\u00a0"
              (replace "\r\n" "\n" (t.flatMap (writtenIn escaped)))))))))) := rfl
    _ = t.flatMap (writtenIn []) := by
      rw [replace_of_lacks (by simp) _ hno, hnbsp, hlt, hgt, hquot, hshort, hapos, hnamed, hamp]
    _ = t := hnone

/-! ## What escaped text looks like -/

/-- No character of markup but the ampersand is left. -/
theorem not_mem_escapeText {t : Text} {c : Char} (hc : c ∈ "<>\"'".toList) : c ∉ escapeText t := by
  have hspecial : ∀ c ∈ "<>\"'".toList, c ∉ (['&'] : Text) ∧ c ∉ ("&amp;" : Text)
      ∧ c ∉ ("&lt;" : Text) ∧ c ∉ ("&gt;" : Text) ∧ c ∉ ("&quot;" : Text)
      ∧ c ∉ ("&#039;" : Text) := by decide
  obtain ⟨hbare, hamp, hlt, hgt, hquot, hapos⟩ := hspecial c hc
  induction t with
  | nil => simp [escapeText]
  | cons d t ih =>
    rw [escapeText]
    refine List.mem_append.not.2 (not_or.2 ⟨?_, ih⟩)
    split
    · split
      · exact hbare
      · exact hamp
    split
    · exact hlt
    split
    · exact hgt
    split
    · exact hquot
    split
    · exact hapos
    rintro hm
    obtain rfl := List.mem_singleton.1 hm
    simp_all

/-- The first and the last character of a reference are not blank. -/
theorem isBlank_of_mem_referenceOf {c d : Char} (hc : isBlank c = false)
    (hd : d ∈ (referenceOf c).head? ∨ d ∈ (referenceOf c).getLast?) : isBlank d = false := by
  by_cases he : c ∈ escaped
  · have : ∀ c ∈ escaped, (∀ d ∈ (referenceOf c).head?, isBlank d = false)
        ∧ ∀ d ∈ (referenceOf c).getLast?, isBlank d = false := by decide
    exact hd.elim ((this c he).1 d) ((this c he).2 d)
  · rw [referenceOf_of_not_mem he] at hd
    obtain rfl : c = d := by simpa using hd
    exact hc

/-- Escaping leaves no blanks around a text that had none. -/
theorem trim_escapeText {t : Text} (h : ReferenceFree t) (ht : trim t = t) :
    trim (escapeText t) = escapeText t := by
  obtain ⟨hfirst, hlast⟩ := trim_eq_self_iff.1 ht
  rw [escapeText_eq_flatMap h, trim_eq_self_iff]
  constructor
  · cases t with
    | nil => simp
    | cons c t =>
      intro d hd
      rw [List.flatMap_cons, List.head?_append_of_ne_nil _ (referenceOf_ne_nil c)] at hd
      exact isBlank_of_mem_referenceOf (hfirst c rfl) (.inl hd)
  · rcases List.eq_nil_or_concat t with rfl | ⟨s, c, rfl⟩
    · simp
    · intro d hd
      rw [List.concat_eq_append, List.flatMap_append, List.flatMap_singleton,
        List.getLast?_append_of_ne_nil _ (referenceOf_ne_nil c)] at hd
      exact isBlank_of_mem_referenceOf (hlast c (by simp)) (.inr hd)

/-- Characters that need not be escaped stay as they are. -/
theorem escapeText_append_of_not_mem {t : Text} (h : ∀ c ∈ t, c ∉ escaped) (s : Text) :
    escapeText (t ++ s) = t ++ escapeText s := by
  induction t with
  | nil => rfl
  | cons c t ih =>
    have hc : c ≠ '&' ∧ c ≠ '<' ∧ c ≠ '>' ∧ c ≠ '"' ∧ c ≠ '\'' := by
      simpa [escaped] using h c (List.mem_cons_self ..)
    rw [List.cons_append, escapeText, ih fun d hd => h d (List.mem_cons_of_mem c hd)]
    simp [hc]

/-- A text in which nothing has to be escaped stays as it is. -/
theorem escapeText_eq_self {t : Text} (h : ∀ c ∈ t, c ∉ escaped) : escapeText t = t := by
  simpa [escapeText] using escapeText_append_of_not_mem h []

/-- So does an address without blanks. -/
theorem escapeUrl_eq_self {t : Text} (h : ∀ c ∈ t, c ∉ escaped) (hslash : '\\' ∉ t)
    (hblank : ∀ c ∈ t, isBlank c = false) : escapeUrl t = t := by
  rw [escapeUrl, trim_of_all_not_isBlank hblank]
  induction t with
  | nil => rfl
  | cons c t ih =>
    have hc : c ≠ '&' ∧ c ≠ '<' ∧ c ≠ '>' ∧ c ≠ '"' ∧ c ≠ '\'' := by
      simpa [escaped] using h c (List.mem_cons_self ..)
    have hspace : c ≠ ' ' := by
      rintro rfl
      exact absurd (hblank ' ' (List.mem_cons_self ..)) (by decide)
    obtain ⟨hback, hslash⟩ : '\\' ≠ c ∧ '\\' ∉ t := by simpa using hslash
    rw [escapeAddress, ih (fun d hd => h d (List.mem_cons_of_mem c hd)) hslash
      fun d hd => hblank d (List.mem_cons_of_mem c hd)]
    simp [hc, hspace, Ne.symm hback]

end WidgetCompiler.Markup
