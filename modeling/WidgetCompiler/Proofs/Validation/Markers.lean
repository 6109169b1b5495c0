import WidgetCompiler.Proofs.Text.AnyCase
import WidgetCompiler.Proofs.Text.Blank
import WidgetCompiler.Proofs.Text.Pattern
import WidgetCompiler.Proofs.Text.Run
import WidgetCompiler.Validation.Markers

/-!
# Sources without marks of trouble

`Harmless left right` says that a place with these texts at its sides gives no check of marks a
reason to find fault.  Each check reads on from the place where its mark begins; what is asked here
is asked where the mark becomes unmistakable, at a `<`, a `$` or a `[`, and looks back from there as
far as it has to.  So most characters are harmless whatever stands around them, and that is what
makes the property easy to carry from pieces of a source to the whole.

A source that is harmless at all places passes all checks of marks.
-/

namespace WidgetCompiler.Validation

open Text

/-- The beginnings of all that belongs to a whole page. -/
def pageMarks : List Text := ["<!", "<html", "</html", "<head", "<body"]

/-- No check of marks finds fault with a place between these texts. -/
structure Harmless (left right : Text) : Prop where
  /-- Nothing of a page begins here. -/
  page : ∀ mark ∈ pageMarks, afterAnyCase? mark right = none
  /-- Code that begins here was not just left, or goes on with a keyword. -/
  opening : ∀ s, right = Php.openTag ++ s → Php.closeTag <:+ trimEnd left →
    ∃ word ∈ transitionKeywords, ∃ c r, s = ' ' :: (word ++ c :: r) ∧ isWordPart c = false
  /-- No code begins here that prints one value. -/
  short : ∀ s, right ≠ shortEchoTag ++ s
  /-- A setting is looked up under an identifier, and printed as it is only if it holds code. -/
  lookup : ∀ s, right = ("$settings[" : Text) ++ s →
    ∃ id r, isIdentifier id = true ∧ s = '\'' :: (id ++ '\'' :: ']' :: r)
      ∧ (("echo" : Text) <:+ trimEnd left → id ∈ rawCodeControls)
  /-- The entries of the control for the style sheet have no default among them. -/
  entry : ∀ s, right = '[' :: s → ("'custom_css'," : Text) <:+ trimEnd left →
    ∀ fuel, defaultIn? fuel s = none
  /-- No carriage return stands here, so that lines end at line feeds only. -/
  line : ∀ s, right ≠ '\r' :: s

/-- Where no tag and no delimiter begins, only settings and lists can do harm. -/
theorem harmless_of_ne {c : Char} {left right : Text} (hc : c ≠ '<') (hline : c ≠ '\r')
    (lookup : ∀ s, c :: right = ("$settings[" : Text) ++ s →
      ∃ id r, isIdentifier id = true ∧ s = '\'' :: (id ++ '\'' :: ']' :: r)
        ∧ (("echo" : Text) <:+ trimEnd left → id ∈ rawCodeControls))
    (entry : ∀ s, c :: right = '[' :: s → ("'custom_css'," : Text) <:+ trimEnd left →
      ∀ fuel, defaultIn? fuel s = none) : Harmless left (c :: right) where
  page mark hmark := by
    have hfirst : ∀ mark ∈ pageMarks, mark.head? = some '<' := by decide
    obtain ⟨m, rfl⟩ := List.head?_eq_some_iff.1 (hfirst mark hmark)
    have hfalse : ¬ sameLetter '<' c = true := fun h => hc (eq_of_sameLetter (by decide) h)
    rw [afterAnyCase?, if_neg hfalse]
  opening s h := absurd (List.cons.inj h).1 hc
  short s h := absurd (List.cons.inj h).1 hc
  lookup := lookup
  entry := entry
  line s h := hline (List.cons.inj h).1

/-- The characters at which a place may be harmful. -/
def harmfulMarks : Text := "<$[\r"

theorem harmless_of_not_mem {c : Char} (hc : c ∉ harmfulMarks) (left right : Text) :
    Harmless left (c :: right) := by
  have hne : ∀ d ∈ harmfulMarks, c ≠ d := fun d hd h => hc (h ▸ hd)
  refine harmless_of_ne (hne _ (by decide)) (hne _ (by decide)) (fun s h => ?_) fun s h => ?_
  · exact absurd (List.cons.inj h).1 (hne _ (by decide))
  · exact absurd (List.cons.inj h).1 (hne _ (by decide))

/-- Every place of the text is harmless. -/
def AllHarmless (s : Text) : Prop := ∀ a b, s = a ++ b → b ≠ [] → Harmless a b

section

variable {s : Text}

/-! ## Blanks between marks -/

theorem exists_of_afterBlanks (s : Text) :
    ∃ gap, allBlank gap = true ∧ s = gap ++ afterBlanks s :=
  ⟨s.takeWhile isBlank, allBlank_takeWhile s, (List.takeWhile_append_dropWhile).symm⟩

theorem exists_of_afterSomeBlanks? {rest : Text} (h : afterSomeBlanks? s = some rest) :
    ∃ gap, allBlank gap = true ∧ s = gap ++ rest := by
  cases s with
  | nil => simp [afterSomeBlanks?] at h
  | cons c s =>
    simp only [afterSomeBlanks?] at h
    split at h
    · next hc =>
      obtain ⟨gap, hgap, hs⟩ := exists_of_afterBlanks s
      obtain rfl := Option.some.inj h
      refine ⟨c :: gap, by simp [hc, hgap], ?_⟩
      rw [List.cons_append, ← hs]
    · simp at h

/-- Behind a mark and blanks, the text so far ends in the mark but for blanks. -/
theorem suffix_trimEnd {mark gap : Text} (hgap : allBlank gap = true) (front : Text)
    (hmark : ∃ c ∈ mark.getLast?, isBlank c = false) :
    mark <:+ trimEnd (front ++ mark ++ gap) := by
  obtain ⟨c, hc, hblank⟩ := hmark
  have hend : (front ++ mark).getLast? = some c := by
    rw [List.getLast?_append, Option.mem_def.1 hc]
    rfl
  rw [trimEnd_append_of_allBlank hgap, trimEnd_of_getLast? hend hblank]
  exact List.suffix_append front mark

/-! ## Changes of mode -/

/-- A change of mode is a `?>` with blanks and a `<?php` behind it, and what follows is read on to
the end of a word. -/
theorem transition_eq_some {prev : Option Char} {word rest : Text}
    (h : transition prev s = some (word, rest)) :
    ∃ gap r r', allBlank gap = true ∧ s = Php.closeTag ++ gap ++ (Php.openTag ++ r)
      ∧ afterSomeBlanks? r = some r' ∧ word = r'.takeWhile isWordPart
      ∧ rest = r'.dropWhile isWordPart := by
  unfold transition at h
  split at h
  · next s₁ h₁ =>
    obtain ⟨s₀, h₀, rfl⟩ := Option.map_eq_some_iff.1 h₁
    obtain ⟨gap, hgap, hs₀⟩ := exists_of_afterBlanks s₀
    split at h
    · next r' hr' =>
      obtain ⟨r, hr, hblanks⟩ := Option.bind_eq_some_iff.1 hr'
      obtain ⟨rfl, rfl⟩ := by simpa using h
      refine ⟨gap, r, r', hgap, ?_, hblanks, rfl, rfl⟩
      rw [after?_eq_some.1 h₀, List.append_assoc, ← after?_eq_some.1 hr, ← hs₀]
    · simp at h
  · simp at h

theorem consumes_transition : Pattern.Consumes transition := by
  intro prev s word rest h
  obtain ⟨gap, r, r', -, rfl, hr, -, rfl⟩ := transition_eq_some h
  obtain ⟨gap', -, rfl⟩ := exists_of_afterSomeBlanks? hr
  refine (List.dropWhile_suffix _).trans ⟨Php.closeTag ++ gap ++ Php.openTag ++ gap', ?_⟩
  simp

theorem word_of_keyword {word r : Text} {c : Char} (hword : word ∈ transitionKeywords)
    (hc : isWordPart c = false) :
    afterSomeBlanks? (' ' :: (word ++ c :: r)) = some (word ++ c :: r)
      ∧ (word ++ c :: r).takeWhile isWordPart = word := by
  have hword' : ∀ word ∈ transitionKeywords,
      (∃ d ∈ word.head?, isBlank d = false) ∧ ∀ d ∈ word, isWordPart d = true := by decide
  obtain ⟨⟨d, hd, hblank⟩, hparts⟩ := hword' word hword
  refine ⟨?_, takeWhile_run hparts (by simpa using hc)⟩
  obtain ⟨word, rfl⟩ := List.head?_eq_some_iff.1 hd
  simp [afterSomeBlanks?, afterBlanks, hblank, show isBlank ' ' = true from rfl]

theorem checkTransitions_eq_nil (h : AllHarmless s) : checkTransitions (Source.ofText s) = [] := by
  have hnone : (Pattern.findAll transition s).filter (!transitionKeywords.contains ·.value) = [] := by
    refine List.filter_eq_nil_iff.2 fun found hfound => ?_
    obtain ⟨a, b, prev, rest, rfl, hmatch⟩ := Pattern.of_mem_findAll consumes_transition hfound
    obtain ⟨gap, r, r', hgap, rfl, hr, hvalue, -⟩ := transition_eq_some hmatch
    have hplace := h (a ++ Php.closeTag ++ gap) (Php.openTag ++ r) (by simp) (by simp [Php.openTag])
    obtain ⟨word, hword, c, r'', rfl, hc⟩ :=
      hplace.opening r rfl (suffix_trimEnd hgap a (by decide))
    obtain ⟨hblanks, htake⟩ := word_of_keyword (r := r'') hword hc
    obtain rfl := Option.some.inj (hblanks.symm.trans hr)
    rw [hvalue, htake]
    simpa using hword
  simp only [checkTransitions, Source.ofText, hnone]

/-! ## Pieces of a page -/

theorem checkPageStructure_eq_nil (h : AllHarmless s) :
    checkPageStructure (Source.ofText s) = [] := by
  have hmark (mark : Text) (hmark : mark ∈ pageMarks) (more : Text) (a b : Text) (hab : s = a ++ b)
      (hb : b ≠ []) : afterAnyCase? (mark ++ more) b = none := by
    rw [afterAnyCase?_append, (h a b hab hb).page mark hmark, Option.bind_none]
  have hcase (mark : Text) (hm : mark ∈ pageMarks) (more : Text) :
      Pattern.Absent (anyCase (mark ++ more)) s := by
    intro a b hab hb prev
    rw [anyCase, hmark mark hm more a b hab hb, Option.map_none]
  have hnamed (name : Text) (hm : '<' :: name ∈ pageMarks) :
      Pattern.Absent (pageTagNamed name) s := by
    intro a b hab hb prev
    have := hmark ('<' :: name) hm [] a b hab hb
    rw [List.append_nil] at this
    rw [pageTagNamed, this]
  refine List.filterMap_eq_nil_iff.2 fun entry hentry => ?_
  have habsent : Pattern.Absent entry.1 s := by
    simp only [pagePatterns, List.mem_cons, List.not_mem_nil, or_false] at hentry
    rcases hentry with rfl | rfl | rfl | rfl | rfl
    · exact hcase "<!" (by decide) "doctype"
    · exact hnamed "html" (by decide)
    · exact hcase "</html" (by decide) ">"
    · exact hnamed "head" (by decide)
    · exact hnamed "body" (by decide)
  change (Pattern.findOffset? entry.1 s).map _ = none
  rw [habsent.findOffset?_eq_none, Option.map_none]

/-! ## Settings -/

theorem not_mem_of_isIdentifier {id : Text} {c : Char} (h : isIdentifier id = true)
    (hc : c.isAlphanum = false) (hc' : c ≠ '_') : c ∉ id := by
  intro hm
  have hall : id.all (fun c => c.isAlphanum || c == '_') = true := by
    simpa [isIdentifier] using (Bool.and_eq_true_iff.1 h).2
  have := List.all_eq_true.1 hall c hm
  simp [hc, hc'] at this

theorem settingsLookup_eq_some {prev : Option Char} {id rest : Text}
    (h : settingsLookup prev s = some (id, rest)) :
    ∃ q r, s = ("$settings[" : Text) ++ q :: r ∧ Style.isQuote q = true
      ∧ cutAt? (· == q) r = some (id, ']' :: rest) := by
  unfold settingsLookup at h
  split at h
  · next q r hr =>
    split at h
    · next hq =>
      split at h
      · next i t ht =>
        obtain ⟨rfl, rfl⟩ := by simpa using h
        exact ⟨q, r, after?_eq_some.1 hr, hq, ht⟩
      · simp at h
    · simp at h
  · simp at h

theorem consumes_settingsLookup : Pattern.Consumes settingsLookup := by
  intro prev s id rest h
  obtain ⟨q, r, rfl, -, hr⟩ := settingsLookup_eq_some h
  obtain ⟨d, -, rfl, -⟩ := cutAt?_eq_some hr
  exact ⟨("$settings[" : Text) ++ q :: (id ++ [d, ']']), by simp⟩

theorem checkControlIds_eq_nil (h : AllHarmless s) : checkControlIds (Source.ofText s) = [] := by
  have hid : ∀ found ∈ Pattern.findAll settingsLookup s, isIdentifier found.value = true := by
    intro found hfound
    obtain ⟨a, b, prev, rest, hab, hmatch⟩ := Pattern.of_mem_findAll consumes_settingsLookup hfound
    obtain ⟨q, r, rfl, -, hcut⟩ := settingsLookup_eq_some hmatch
    obtain ⟨id, r', hid, hr, -⟩ := (h a _ hab (by simp)).lookup (q :: r) rfl
    obtain ⟨rfl, rfl⟩ := List.cons.inj hr
    have hquote : '\'' ∉ id := not_mem_of_isIdentifier hid (by decide) (by decide)
    have := cutAt?_run (p := (· == '\'')) (a := id) (c := '\'') (b := ']' :: r')
      (fun d hd => beq_eq_false_iff_ne.2 fun e => hquote (e ▸ hd)) rfl
    rw [this] at hcut
    obtain ⟨rfl, -⟩ := by simpa using hcut
    exact hid
  have hissues (found : List (Found Text)) (hfound : ∀ f ∈ found, isIdentifier f.value = true)
      (seen : List Text) : idIssues (Source.ofText s) seen found = [] := by
    induction found with
    | nil => rfl
    | cons f found ih =>
      rw [idIssues, hfound f (by simp), Bool.true_or, if_pos rfl]
      exact ih fun f' hf' => hfound f' (by simp [hf'])
  exact hissues _ hid []

/-- What stands between the quotes of a setting's id, or what is read as such. -/
def idCharacter (c : Char) : Bool := !(Style.isQuote c || c == ']')

/-- The text from behind the quote on that may open an id. -/
def afterQuote (s : Text) : Text :=
  match afterBlanks s with
  | c :: r => if Style.isQuote c then r else c :: r
  | [] => []

theorem suffix_afterQuote (s : Text) : afterQuote s <:+ s := by
  have hblanks : afterBlanks s <:+ s := List.dropWhile_suffix _
  unfold afterQuote
  split
  · next c r hr =>
    rw [hr] at hblanks
    split
    · exact (List.suffix_cons c r).trans hblanks
    · exact hblanks
  · exact List.nil_suffix

theorem plainEcho_eq_some {prev : Option Char} {id rest : Text}
    (h : plainEcho prev s = some (id, rest)) :
    ∃ mark gap r, (mark = ("echo" : Text) ∨ mark = shortEchoTag) ∧ allBlank gap = true
      ∧ s = mark ++ gap ++ (("$settings[" : Text) ++ r)
      ∧ id = (afterQuote r).takeWhile idCharacter ∧ rest = (afterQuote r).dropWhile idCharacter := by
  unfold plainEcho at h
  simp only at h
  split at h
  · next r hr =>
    obtain ⟨rfl, rfl⟩ := Prod.mk.inj (Option.some.inj h)
    obtain ⟨opened, hopened, hr⟩ := Option.bind_eq_some_iff.1 hr
    have hsettings := after?_eq_some.1 hr
    rw [Option.orElse_eq_orElse, Option.orElse_eq_or] at hopened
    rcases Option.or_eq_some_iff.1 hopened with hecho | ⟨-, hshort⟩
    · obtain ⟨t, ht, hblanks⟩ := Option.bind_eq_some_iff.1 hecho
      obtain ⟨gap, hgap, rfl⟩ := exists_of_afterSomeBlanks? hblanks
      refine ⟨"echo", gap, r, .inl rfl, hgap, ?_, rfl, rfl⟩
      rw [after?_eq_some.1 ht, hsettings, List.append_assoc]
    · obtain ⟨t, ht, rfl⟩ := Option.map_eq_some_iff.1 hshort
      obtain ⟨gap, hgap, hs⟩ := exists_of_afterBlanks t
      refine ⟨shortEchoTag, gap, r, .inr rfl, hgap, ?_, rfl, rfl⟩
      rw [after?_eq_some.1 ht, List.append_assoc, ← hsettings, ← hs]
  · simp at h

theorem consumes_plainEcho : Pattern.Consumes plainEcho := by
  intro prev s id rest h
  obtain ⟨mark, gap, r, -, -, rfl, -, rfl⟩ := plainEcho_eq_some h
  have hr : r <:+ mark ++ gap ++ (("$settings[" : Text) ++ r) :=
    (List.suffix_append _ r).trans (List.suffix_append _ _)
  exact ((List.dropWhile_suffix _).trans (suffix_afterQuote r)).trans hr

theorem checkEscaping_eq_nil (h : AllHarmless s) : checkEscaping (Source.ofText s) = [] := by
  have hnone : (Pattern.findAll plainEcho s).filter (!rawCodeControls.contains ·.value) = [] := by
    refine List.filter_eq_nil_iff.2 fun found hfound => ?_
    obtain ⟨a, b, prev, rest, hab, hmatch⟩ := Pattern.of_mem_findAll consumes_plainEcho hfound
    obtain ⟨mark, gap, r, hmark, hgap, rfl, hvalue, -⟩ := plainEcho_eq_some hmatch
    rcases hmark with rfl | rfl
    · have hplace := h (a ++ ("echo" : Text) ++ gap) (("$settings[" : Text) ++ r)
        (by rw [hab]; simp) (by simp)
      obtain ⟨id, r', hid, rfl, hraw⟩ := hplace.lookup r rfl
      have hread : (afterQuote ('\'' :: (id ++ '\'' :: ']' :: r'))).takeWhile idCharacter = id := by
        refine takeWhile_run (fun c hc => ?_) (by simp [idCharacter, Style.isQuote])
        have hall : id.all (fun c => c.isAlphanum || c == '_') = true :=
          (Bool.and_eq_true_iff.1 hid).2
        have hne : ∀ d ∈ ("\"']" : Text), (d.isAlphanum || d == '_') = false := by decide
        have hc' : ∀ d ∈ ("\"']" : Text), c ≠ d := fun d hd e =>
          Bool.false_ne_true ((e ▸ hne d hd).symm.trans (List.all_eq_true.1 hall c hc))
        simp [idCharacter, Style.isQuote, hc' '"' (by decide), hc' '\'' (by decide),
          hc' ']' (by decide)]
      rw [hvalue, hread]
      simpa using hraw (suffix_trimEnd hgap a (by decide))
    · have hplace := h a _ hab (by simp [shortEchoTag])
      exact absurd (by simp) (hplace.short (gap ++ (("$settings[" : Text) ++ r)))
  simp only [checkEscaping, Source.ofText, hnone]

/-! ## The style sheet -/

theorem checkGlobalCss_eq_nil (h : AllHarmless s) : checkGlobalCss (Source.ofText s) = [] := by
  have habsent : Pattern.Absent customCssDefault s := by
    intro a b hab hb prev
    unfold customCssDefault
    split
    · next r hr =>
      obtain ⟨r', hr', hblanks⟩ := Option.map_eq_some_iff.1 hr
      obtain ⟨gap, hgap, hs⟩ := exists_of_afterBlanks r'
      rw [hblanks] at hs
      have hb' := after?_eq_some.1 hr'
      have hplace := h (a ++ ("'custom_css'," : Text) ++ gap) ('[' :: r)
        (by rw [hab, hb', hs]; simp) (by simp)
      rw [hplace.entry r rfl (suffix_trimEnd hgap a (by decide)), Option.map_none]
    · rfl
  have hnone : Pattern.findValue? customCssDefault (Source.ofText s).text = none :=
    habsent.findValue?_eq_none
  rw [checkGlobalCss, hnone]

end

end WidgetCompiler.Validation
