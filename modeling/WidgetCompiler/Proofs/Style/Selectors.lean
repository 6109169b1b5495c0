import WidgetCompiler.Proofs.Text.AsciiCase
import WidgetCompiler.Proofs.Text.Run
import WidgetCompiler.Style.Selector

/-!
# Selectors as they are written

A `Selector` is built of types, classes, ids and attributes with `:not`, `:is`, combinators and
commas; `Writes` says which texts write it.  What `references` reads off such a text are the names in
the selector, all of them, in their order, whatever they are there for (`references_of_writes`).
-/

namespace WidgetCompiler.Style

open Text

/-! ## Selectors -/

/-- How two compound selectors are combined. -/
inductive Combinator
  | descendant
  | child
  | next
  | later
deriving DecidableEq, Repr

/-- A selector. -/
inductive Selector
  | type (name : Text)
  | universal
  | class (name : Text)
  | id (name : Text)
  /-- What stands between the brackets of an attribute selector. -/
  | attr (inside : Text)
  | not (inner : Selector)
  | is (inner : Selector)
  /-- Two selectors for one element. -/
  | both (s t : Selector)
  /-- A selector for an element, and one for an element that it stands to in a relation. -/
  | combined (s : Selector) (link : Combinator) (t : Selector)
  /-- Alternatives. -/
  | either (s t : Selector)
deriving DecidableEq, Repr

/-- The names in a selector. -/
def Selector.names : Selector → List SelectorRef
  | .type name => [.type (lowerAscii name)]
  | .universal => []
  | .class name => [.class name]
  | .id name => [.id name]
  | .attr _ => []
  | .not inner => inner.names
  | .is inner => inner.names
  | .both s t => s.names ++ t.names
  | .combined s _ t => s.names ++ t.names
  | .either s t => s.names ++ t.names

/-! ## Writing selectors -/

/-- Whether the character goes on with the number of an escaped character. -/
def isHexDigit (c : Char) : Bool := c.isDigit || ('a' ≤ c.toLower && c.toLower ≤ 'f')

/-- A text writes a name: characters that names are made of stand for themselves, and others are
escaped by a backslash. -/
inductive WritesName : Text → Text → Prop
  | nil : WritesName [] []
  | part {c : Char} {name t : Text} : isNamePart c = true → WritesName name t →
      WritesName (c :: name) (c :: t)
  | escaped {c : Char} {name t : Text} : isHexDigit c = false → c ≠ '\n' → WritesName name t →
      WritesName (c :: name) ('\\' :: c :: t)

/-- Blanks between the parts of a selector. -/
def IsGap (t : Text) : Prop := ∀ c ∈ t, c = ' ' ∨ c = '\t' ∨ c = '\n'

/-- The character that writes a combinator, if it is not written as blanks. -/
def Combinator.mark? : Combinator → Option Char
  | descendant => none
  | child => some '>'
  | next => some '+'
  | later => some '~'

/-- A text writes a combinator. -/
def Combinator.Writes (link : Combinator) (t : Text) : Prop :=
  match link.mark? with
  | none => t ≠ [] ∧ IsGap t
  | some c => ∃ before after, IsGap before ∧ IsGap after ∧ t = before ++ c :: after

/-- Where a selector stands. -/
inductive Role
  /-- Behind the beginning of a compound selector. -/
  | suffix
  | compound
  | complex
  | list
deriving DecidableEq, Repr

/-- A text writes a selector. -/
inductive Writes : Role → Selector → Text → Prop
  | class {name t : Text} : name ≠ [] → WritesName name t →
      Writes .suffix (.class name) ('.' :: t)
  | id {name t : Text} : name ≠ [] → WritesName name t → Writes .suffix (.id name) ('#' :: t)
  | attr {inside : Text} : ']' ∉ inside →
      Writes .suffix (.attr inside) ('[' :: (inside ++ [']']))
  | not {word before after t : Text} {s : Selector} : lowerAscii word = "not" → IsGap before →
      IsGap after → Writes .list s t →
      Writes .suffix (.not s) (':' :: (word ++ '(' :: (before ++ (t ++ (after ++ [')'])))))
  | is {word before after t : Text} {s : Selector} : lowerAscii word = "is" → IsGap before →
      IsGap after → Writes .list s t →
      Writes .suffix (.is s) (':' :: (word ++ '(' :: (before ++ (t ++ (after ++ [')'])))))
  | suffixes {s s' : Selector} {t t' : Text} : Writes .suffix s t → Writes .suffix s' t' →
      Writes .suffix (.both s s') (t ++ t')
  | type {c : Char} {name t : Text} : isLetter c = true → WritesName name t →
      Writes .compound (.type (c :: name)) (c :: t)
  | universal : Writes .compound .universal ['*']
  | bare {s : Selector} {t : Text} : Writes .suffix s t → Writes .compound s t
  | both {s s' : Selector} {t t' : Text} : Writes .compound s t → Writes .suffix s' t' →
      Writes .compound (.both s s') (t ++ t')
  | alone {s : Selector} {t : Text} : Writes .compound s t → Writes .complex s t
  | combined {link : Combinator} {s s' : Selector} {t t' l : Text} : Writes .complex s t →
      link.Writes l → Writes .compound s' t' → Writes .complex (.combined s link s') (t ++ (l ++ t'))
  | single {s : Selector} {t : Text} : Writes .complex s t → Writes .list s t
  | either {s s' : Selector} {t t' before after : Text} : Writes .list s t → IsGap before →
      IsGap after → Writes .complex s' t' →
      Writes .list (.either s s') (t ++ (before ++ ',' :: (after ++ t')))

/-! ## Reading names -/

variable {name t rest : Text} {c : Char}

/-- A name ends before the text. -/
def EndsName (t : Text) : Prop := ∀ c ∈ t.head?, isNamePart c = false ∧ c ≠ '\\'

theorem isNamePart_backslash : isNamePart '\\' = false := by decide

theorem readName_of_endsName (h : EndsName rest) : readName rest = ([], rest) := by
  cases rest with
  | nil => rfl
  | cons c rest =>
    obtain ⟨hpart, hslash⟩ := h c rfl
    rw [readName]
    · simp [hpart]
    · intro d s hc
      exact absurd hc hslash

/-- A character that names are made of is read as itself. -/
theorem readName_part (hpart : isNamePart c = true) (h : readName t = (name, rest)) :
    readName (c :: t) = (c :: name, rest) := by
  have hslash : c ≠ '\\' := by
    rintro rfl
    exact Bool.false_ne_true (isNamePart_backslash.symm.trans hpart)
  rw [readName]
  · simp [hpart, h]
  · intro d s hc
    exact absurd hc hslash

/-- Behind a backslash, any character is read as itself. -/
theorem readName_escaped (c : Char) (h : readName t = (name, rest)) :
    readName ('\\' :: c :: t) = (c :: name, rest) := by
  rw [readName, h]

theorem readName_writes (h : WritesName name t) (hrest : EndsName rest) :
    readName (t ++ rest) = (name, rest) := by
  induction h with
  | nil => exact readName_of_endsName hrest
  | part hpart _ ih => exact readName_part hpart ih
  | escaped _ _ _ ih => exact readName_escaped _ ih

/-! ## Reading references -/

theorem referencesFrom_class (atStart : Bool) (hname : name ≠ []) (h : readName t = (name, rest)) :
    referencesFrom atStart ('.' :: t) = .class name :: referencesFrom false rest := by
  rw [referencesFrom]
  simp [h, hname]

theorem referencesFrom_id (atStart : Bool) (hname : name ≠ []) (h : readName t = (name, rest)) :
    referencesFrom atStart ('#' :: t) = .id name :: referencesFrom false rest := by
  rw [referencesFrom]
  simp [h, hname]

theorem referencesFrom_attr (atStart : Bool) {inside : Text} (h : ']' ∉ inside) (rest : Text) :
    referencesFrom atStart ('[' :: (inside ++ ']' :: rest)) = referencesFrom false rest := by
  have hdrop : (inside ++ ']' :: rest).dropWhile (· != ']') = ']' :: rest :=
    dropWhile_run (fun c hc => by
      refine bne_iff_ne.2 ?_
      rintro rfl
      exact h hc) (by simp)
  rw [referencesFrom]
  simp [hdrop]

/-- Behind what separates compound selectors one may begin. -/
theorem referencesFrom_separators {gap : Text} (h : ∀ c ∈ gap, separatesCompounds c = true)
    (atStart : Bool) (rest : Text) :
    referencesFrom atStart (gap ++ rest) = referencesFrom (atStart || !gap.isEmpty) rest := by
  induction gap generalizing atStart with
  | nil => simp
  | cons c gap ih =>
    obtain ⟨hc, hgap⟩ := List.forall_mem_cons.1 h
    have hother : ¬ (c = '.' ∨ c = '#') ∧ c ≠ '[' ∧ c ≠ ':' := by
      refine ⟨?_, ?_, ?_⟩
      · rintro (rfl | rfl)
        · exact absurd hc (by decide)
        · exact absurd hc (by decide)
      · rintro rfl
        exact absurd hc (by decide)
      · rintro rfl
        exact absurd hc (by decide)
    rw [List.cons_append, referencesFrom, if_neg hother.1, if_neg hother.2.1, if_neg hother.2.2,
      if_pos hc, ih hgap]
    simp

theorem referencesFrom_type (hc : isLetter c = true) (h : readName t = (name, rest)) :
    referencesFrom true (c :: t) = .type (lowerAscii (c :: name)) :: referencesFrom false rest := by
  have hne {d : Char} (hd : isLetter d = false) : c ≠ d := by
    rintro rfl
    exact Bool.false_ne_true (hd.symm.trans hc)
  have hseparates : separatesCompounds c = false := by
    refine Bool.eq_false_iff.2 fun hsep => ?_
    simp only [separatesCompounds, Bool.or_eq_true, beq_iff_eq] at hsep
    rcases hsep with ((((((hsep | hsep) | hsep) | hsep) | hsep) | hsep) | hsep) | hsep <;>
      exact hne (by decide) hsep
  rw [referencesFrom, if_neg (not_or.2 ⟨hne (by decide), hne (by decide)⟩),
    if_neg (hne (by decide)), if_neg (hne (by decide)), hseparates]
  simp [h, hc]

/-- Other characters name nothing. -/
theorem referencesFrom_other (hc : c ∈ (['*', ')'] : List Char)) (atStart : Bool) (rest : Text) :
    referencesFrom atStart (c :: rest) = referencesFrom false rest := by
  have hother : ¬ (c = '.' ∨ c = '#') ∧ c ≠ '[' ∧ c ≠ ':' ∧ separatesCompounds c = false
      ∧ isLetter c = false := by
    revert hc
    revert c
    decide
  obtain ⟨hname, hbracket, hcolon, hseparates, hletter⟩ := hother
  rw [referencesFrom, if_neg hname, if_neg hbracket, if_neg hcolon, hseparates, hletter,
    Bool.and_false, if_neg Bool.false_ne_true, if_neg Bool.false_ne_true]

/-- A function opens with a parenthesis, behind which a compound selector may begin. -/
theorem referencesFrom_function (atStart : Bool) {word : Text}
    (hword : ∀ c ∈ word, isNamePart c = true) (rest : Text) :
    referencesFrom atStart (':' :: (word ++ '(' :: rest)) = referencesFrom true rest := by
  have hdrop : (word ++ '(' :: rest).dropWhile (fun c => c == ':' || isNamePart c) = '(' :: rest :=
    dropWhile_run (fun c hc => by rw [hword c hc, Bool.or_true]) fun c hc => by
      obtain rfl : '(' = c := Option.some.inj hc
      decide
  have hparen : ∀ c ∈ ['('], separatesCompounds c = true := by decide
  have hopen := referencesFrom_separators hparen false rest
  rw [referencesFrom]
  simp only [hdrop]
  simpa using hopen

theorem isNamePart_of_lowerAscii {word mark : Text} (h : lowerAscii word = mark)
    (hmark : ∀ c ∈ mark, c.isLower = true) : ∀ c ∈ word, isNamePart c = true := by
  intro c hc
  have hlower : c.toLower.isLower = true := hmark _ (h ▸ List.mem_map_of_mem hc)
  simp [isNamePart, isAlphanum_of_isAlpha (isAlpha_of_isLower_toLower hlower)]

/-! ## Reading selectors -/

theorem endsName_cons (hc : isNamePart c = false) (hslash : c ≠ '\\') (rest : Text) :
    EndsName (c :: rest) := by
  intro d hd
  obtain rfl : c = d := Option.some.inj hd
  exact ⟨hc, hslash⟩

theorem IsGap.separates {gap : Text} (h : IsGap gap) : ∀ c ∈ gap, separatesCompounds c = true := by
  intro c hc
  rcases h c hc with rfl | rfl | rfl <;> decide

/-- What separates compound selectors ends a name. -/
theorem endsName_of_separates {gap : Text} (h : ∀ c ∈ gap, separatesCompounds c = true)
    (hrest : gap ≠ [] ∨ EndsName rest) : EndsName (gap ++ rest) := by
  cases gap with
  | nil => exact hrest.resolve_left (fun hne => hne rfl)
  | cons c gap =>
    have hc := h c List.mem_cons_self
    simp only [separatesCompounds, Bool.or_eq_true, beq_iff_eq] at hc
    rcases hc with ((((((rfl | rfl) | rfl) | rfl) | rfl) | rfl) | rfl) | rfl <;>
      exact endsName_cons (by decide) (by decide) _

/-- A combinator separates two compound selectors. -/
theorem Combinator.Writes.separates {link : Combinator} {l : Text} (h : link.Writes l) :
    l ≠ [] ∧ ∀ c ∈ l, separatesCompounds c = true := by
  have hmark (d : Char) (hd : separatesCompounds d = true)
      (h : ∃ before after, IsGap before ∧ IsGap after ∧ l = before ++ d :: after) :
      l ≠ [] ∧ ∀ c ∈ l, separatesCompounds c = true := by
    obtain ⟨before, after, hbefore, hafter, rfl⟩ := h
    refine ⟨by simp, fun c hc => ?_⟩
    rcases List.mem_append.1 hc with hc | hc
    · exact hbefore.separates c hc
    · rcases List.mem_cons.1 hc with rfl | hc
      · exact hd
      · exact hafter.separates c hc
  cases link with
  | descendant => exact ⟨h.1, h.2.separates⟩
  | child => exact hmark '>' (by decide) h
  | next => exact hmark '+' (by decide) h
  | later => exact hmark '~' (by decide) h

/-- A suffix ends the name before it. -/
theorem endsName_suffix {s : Selector} (h : Writes .suffix s t) (rest : Text) :
    EndsName (t ++ rest) := by
  generalize hrole : Role.suffix = role at h
  induction h generalizing rest with
  | «class» | id | attr | not | is => exact endsName_cons (by decide) (by decide) _
  | suffixes _ _ ih =>
    rw [List.append_assoc]
    exact ih _ hrole
  | _ => simp at hrole

/-- The names in an argument of a function are read as they are outside. -/
theorem referencesFrom_argument {word before after : Text} {names : List SelectorRef}
    (hword : ∀ c ∈ word, isNamePart c = true) (hbefore : IsGap before) (hafter : IsGap after)
    (h : ∀ rest, EndsName rest →
      referencesFrom true (t ++ rest) = names ++ referencesFrom false rest) (atStart : Bool)
    (rest : Text) :
    referencesFrom atStart (':' :: (word ++ '(' :: (before ++ (t ++ (after ++ [')'])))) ++ rest)
      = names ++ referencesFrom false rest := by
  have hclose : EndsName (after ++ ')' :: rest) := endsName_of_separates hafter.separates
    (.inr (endsName_cons (by decide) (by decide) rest))
  calc referencesFrom atStart (':' :: (word ++ '(' :: (before ++ (t ++ (after ++ [')'])))) ++ rest)
      = referencesFrom atStart (':' :: (word ++ '(' :: (before ++ (t ++ (after ++ ')' :: rest))))) := by
        simp
    _ = referencesFrom true (before ++ (t ++ (after ++ ')' :: rest))) :=
        referencesFrom_function atStart hword _
    _ = referencesFrom true (t ++ (after ++ ')' :: rest)) := by
        rw [referencesFrom_separators hbefore.separates, Bool.true_or]
    _ = names ++ referencesFrom false (after ++ ')' :: rest) := h _ hclose
    _ = names ++ referencesFrom false rest := by
        rw [referencesFrom_separators hafter.separates, referencesFrom_other (by decide)]

/-- What is read off a selector are its names. -/
theorem referencesFrom_writes {role : Role} {s : Selector} (h : Writes role s t)
    {atStart : Bool} (hstart : role ≠ .suffix → atStart = true) (hrest : EndsName rest) :
    referencesFrom atStart (t ++ rest) = s.names ++ referencesFrom false rest := by
  induction h generalizing atStart rest with
  | «class» hne hname => exact referencesFrom_class atStart hne (readName_writes hname hrest)
  | id hne hname => exact referencesFrom_id atStart hne (readName_writes hname hrest)
  | attr hinside => 
    simp only [List.cons_append, List.append_assoc, List.nil_append, Selector.names]
    exact referencesFrom_attr atStart hinside rest
  | not hword hbefore hafter _ ih =>
    exact referencesFrom_argument (isNamePart_of_lowerAscii hword (by decide)) hbefore hafter
      (fun _ hends => ih (fun _ => rfl) hends) atStart rest
  | is hword hbefore hafter _ ih =>
    exact referencesFrom_argument (isNamePart_of_lowerAscii hword (by decide)) hbefore hafter
      (fun _ hends => ih (fun _ => rfl) hends) atStart rest
  | suffixes _ h' ih ih' =>
    rw [List.append_assoc, ih (fun hne => absurd rfl hne) (endsName_suffix h' _),
      ih' (fun hne => absurd rfl hne) hrest, Selector.names, List.append_assoc]
  | type hc hname =>
    obtain rfl := hstart (by decide)
    exact referencesFrom_type hc (readName_writes hname hrest)
  | universal => exact referencesFrom_other (by decide) atStart rest
  | bare _ ih => exact ih (fun hne => absurd rfl hne) hrest
  | both _ h' ih ih' =>
    rw [List.append_assoc, ih (fun _ => hstart (by decide)) (endsName_suffix h' _),
      ih' (fun hne => absurd rfl hne) hrest, Selector.names, List.append_assoc]
  | alone _ ih => exact ih (fun _ => hstart (by decide)) hrest
  | combined _ hlink _ ih ih' =>
    obtain ⟨hne, hlink⟩ := hlink.separates
    rw [List.append_assoc, List.append_assoc, ih (fun _ => hstart (by decide))
      (endsName_of_separates hlink (.inl hne)), referencesFrom_separators hlink,
      ih' (fun _ => by simpa using hne) hrest, Selector.names, List.append_assoc]
  | single _ ih => exact ih (fun _ => hstart (by decide)) hrest
  | @either s s' t t' before after _ hbefore hafter _ ih ih' =>
    have hcomma : ∀ c ∈ before ++ ',' :: after, separatesCompounds c = true := by
      intro c hc
      rcases List.mem_append.1 hc with hc | hc
      · exact hbefore.separates c hc
      · rcases List.mem_cons.1 hc with rfl | hc
        · decide
        · exact hafter.separates c hc
    have htext : t ++ (before ++ ',' :: (after ++ t')) ++ rest
        = t ++ ((before ++ ',' :: after) ++ (t' ++ rest)) := by simp
    rw [htext, ih (fun _ => hstart (by decide)) (endsName_of_separates hcomma (.inl (by simp))),
      referencesFrom_separators hcomma, ih' (fun _ => by simp) hrest, Selector.names,
      List.append_assoc]

/-- So `references` finds the names of a selector and nothing else. -/
theorem references_of_writes {role : Role} {s : Selector} (h : Writes role s t) :
    references t = s.names := by
  have hends : EndsName [] := fun c hc => by simp at hc
  have hread := referencesFrom_writes h (fun _ => rfl) hends
  have hnil : referencesFrom false [] = [] := by rw [referencesFrom]
  rw [List.append_nil, hnil, List.append_nil] at hread
  exact hread

end WidgetCompiler.Style
