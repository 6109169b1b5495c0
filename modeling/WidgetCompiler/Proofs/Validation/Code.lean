import WidgetCompiler.Proofs.Text.Places
import WidgetCompiler.Proofs.Text.Plain
import WidgetCompiler.Proofs.Validation.Markers
import WidgetCompiler.Proofs.Validation.Quotes

/-!
# Code that no check minds

A piece of code is told to be harmless by looking at a few of its characters (`inCode_of_not_mem`).
Pieces that are always the same are checked by running a test on them (`isTame`); names and literals
that come from outside have none of these characters.  Pieces are then put together to lines and
lines to texts: `Piece` and `Quiet` are kept by that, so nothing has to be said of a whole source
but what its pieces are.
-/

namespace WidgetCompiler.Validation

open Text

/-! ## The default of the style sheet's control -/

/-- Whether a list without brackets has no entry with the key `default`, going by the text up to the
bracket that ends it.  It is strict: no escapes in literals. -/
def hasNoDefault : Option Char → Text → Bool
  | _, [] => false
  | none, c :: t =>
    if c = ']' then true
    else if Style.isQuote c then
      decide (Diverges ("'default'" : Text) (c :: t)) && hasNoDefault (some c) t
    else hasNoDefault none t
  | some q, c :: t => decide (c ≠ '\\') && hasNoDefault (if c = q then none else some q) t

theorem quotedBody?_of_hasNoDefault {q : Char} {t : Text} (h : hasNoDefault (some q) t = true) :
    ∃ body r, r.length < t.length ∧ hasNoDefault none r = true
      ∧ ∀ rest, quotedBody? q (t ++ rest) = some (body, r ++ rest) := by
  induction t with
  | nil => simp [hasNoDefault] at h
  | cons c t ih =>
    rw [hasNoDefault, Bool.and_eq_true, decide_eq_true_eq] at h
    obtain ⟨hc, ht⟩ := h
    have hstep (rest : Text) : quotedBody? q (c :: (t ++ rest)) =
        if c = q then some ([], t ++ rest)
        else (quotedBody? q (t ++ rest)).map fun read => (c :: read.1, read.2) := by
      rw [quotedBody?, if_neg hc]
      rintro d r rfl -
      exact hc rfl
    by_cases hq : c = q
    · refine ⟨[], t, by simp, by simpa [hq] using ht, fun rest => ?_⟩
      rw [List.cons_append, hstep, if_pos hq]
    · obtain ⟨body, r, hlength, hr, hread⟩ := ih (by simpa [hq] using ht)
      refine ⟨c :: body, r, by simp only [List.length_cons]; omega, hr, fun rest => ?_⟩
      rw [List.cons_append, hstep, if_neg hq, hread, Option.map_some]

theorem defaultIn?_of_hasNoDefault {t : Text} (h : hasNoDefault none t = true) (rest : Text)
    (fuel : Nat) : defaultIn? fuel (t ++ rest) = none := by
  induction fuel generalizing t with
  | zero => rfl
  | succ fuel ih =>
    cases t with
    | nil => simp [hasNoDefault] at h
    | cons c t =>
      have hentry : defaultEntry? (c :: (t ++ rest)) = none := by
        have hmark : after? ("'default'" : Text) (c :: (t ++ rest)) = none := by
          refine Option.eq_none_iff_forall_ne_some.2 fun r hr => ?_
          have hprefix : ("'default'" : Text) <+: c :: (t ++ rest) := ⟨r, (after?_eq_some.1 hr).symm⟩
          obtain rfl : '\'' = c := (List.cons_prefix_cons.1 hprefix).1
          rw [hasNoDefault, if_neg (by decide), if_pos (by decide), Bool.and_eq_true,
            decide_eq_true_eq] at h
          exact Diverges.not_prefix h.1 rest hprefix
        rw [ defaultEntry?, hmark, Option.map_none]
      rw [List.cons_append, defaultIn?, hentry]
      rw [hasNoDefault] at h
      by_cases hbracket : c = ']'
      · simp [hbracket]
      · rw [if_neg hbracket] at h
        by_cases hquote : Style.isQuote c = true
        · rw [if_pos hquote, Bool.and_eq_true] at h
          obtain ⟨body, r, -, hr, hread⟩ := quotedBody?_of_hasNoDefault h.2
          simp only [if_neg hbracket, if_pos hquote, hread]
          exact ih hr
        · rw [if_neg hquote] at h
          simp only [if_neg hbracket, if_neg hquote]
          exact ih h

/-! ## Places in code -/

/-- A place in code: a harmless one, where neither the method that shows the widget is declared, nor
code is left, nor a tag begins. -/
structure InCode (left right : Text) : Prop extends Harmless left right where
  call : ∀ s, right = '(' :: s → ¬ ("render" : Text) <:+ trimEnd left
  close : ∀ s, right ≠ Php.closeTag ++ s
  tag : ∀ s, right ≠ '<' :: s

section

variable {left right : Text} {c : Char}

/-- A list that is opened here is no list of the style sheet's control with a default. -/
def OpensList (left right : Text) : Prop :=
  ("'custom_css'," : Text) <:+ trimEnd left → ∀ fuel, defaultIn? fuel right = none

/-- A setting that is looked up here is looked up under an identifier, and printed as it is only if
it holds code. -/
def LooksUp (left right : Text) : Prop :=
  ∀ s, right = ("settings[" : Text) ++ s →
    ∃ id r, isIdentifier id = true ∧ s = '\'' :: (id ++ '\'' :: ']' :: r)
      ∧ (("echo" : Text) <:+ trimEnd left → id ∈ rawCodeControls)

/-- What there is to say of a place in code depends on the one character there. -/
theorem inCode_cons (tag : c ≠ '<') (line : c ≠ '\r') (bracket : c = '[' → OpensList left right)
    (parenthesis : c = '(' → ¬ ("render" : Text) <:+ trimEnd left)
    (dollar : c = '$' → LooksUp left right) (question : c = '?' → ∀ s, right ≠ '>' :: s) :
    InCode left (c :: right) where
  toHarmless := by
    refine harmless_of_ne tag line (fun s h => ?_) fun s h => ?_
    · obtain ⟨hc, hs⟩ := List.cons.inj h
      exact dollar hc s hs
    · obtain ⟨hc, rfl⟩ := List.cons.inj h
      exact bracket hc
  call s h := parenthesis (List.cons.inj h).1
  close s h := question (List.cons.inj h).1 s (List.cons.inj h).2
  tag s h := tag (List.cons.inj h).1

/-- The characters at which a place may not be one in code. -/
def codeMarks : Text := "<\r$[(?"

theorem inCode_of_not_mem (hc : c ∉ codeMarks) (left right : Text) : InCode left (c :: right) := by
  have hne : ∀ d ∈ codeMarks, c ≠ d := fun d hd h => hc (h ▸ hd)
  refine inCode_cons (hne _ (by decide)) (hne _ (by decide)) (fun e => ?_) (fun e => ?_)
    (fun e => ?_) fun e => ?_
  · exact absurd e (hne _ (by decide))
  · exact absurd e (hne _ (by decide))
  · exact absurd e (hne _ (by decide))
  · exact absurd e (hne _ (by decide))

theorem inCode_bracket (h : OpensList left right) : InCode left ('[' :: right) :=
  inCode_cons (by decide) (by decide) (fun _ => h) (fun e => absurd e (by decide))
    (fun e => absurd e (by decide)) fun e => absurd e (by decide)

theorem inCode_parenthesis (h : ¬ ("render" : Text) <:+ trimEnd left) :
    InCode left ('(' :: right) :=
  inCode_cons (by decide) (by decide) (fun e => absurd e (by decide)) (fun _ => h)
    (fun e => absurd e (by decide)) fun e => absurd e (by decide)

end

/-! ## Checking pieces of code -/

/-- Whether an identifier of a control that holds code is looked up behind `$`. -/
def looksUpCode (t : Text) : Bool :=
  rawCodeControls.any fun id => decide (("settings['" : Text) ++ id ++ ("']" : Text) <+: t)

/-- Whether all places of a text are in code, going by the text alone.  What stands before a place
is given in reverse. -/
def isTame (before : Text) : Text → Bool
  | [] => true
  | c :: t =>
    (if c = '[' then decide (EndsApart ("'custom_css'," : Text) before.reverse) || hasNoDefault none t
      else if c = '(' then decide (EndsApart ("render" : Text) before.reverse)
      else if c = '$' then decide (Diverges ("settings[" : Text) t) || looksUpCode t
      else if c = '?' then t.head?.any (· != '>')
      else decide (c ≠ '<' ∧ c ≠ '\r')) && isTame (c :: before) t

theorem along_of_isTame {before t : Text} (h : isTame before t = true) :
    Along InCode before.reverse t := by
  induction t generalizing before with
  | nil => exact Along.nil
  | cons c t ih =>
    rw [isTame, Bool.and_eq_true] at h
    obtain ⟨hc, ht⟩ := h
    have hrest := ih ht
    rw [List.reverse_cons] at hrest
    refine Along.cons (fun front rest => inCode_cons ?_ ?_ ?_ ?_ ?_ ?_) hrest
    · rintro rfl
      simp at hc
    · rintro rfl
      simp at hc
    · rintro rfl hends fuel
      rcases Bool.or_eq_true_iff.1 hc with hc | hc
      · exact absurd hends ((of_decide_eq_true hc).not_suffix front)
      · exact defaultIn?_of_hasNoDefault hc rest fuel
    · rintro rfl
      exact (of_decide_eq_true hc : EndsApart _ _).not_suffix front
    · rintro rfl s hs
      rcases Bool.or_eq_true_iff.1 hc with hc | hc
      · exact absurd ⟨s, hs.symm⟩ (Diverges.not_prefix (of_decide_eq_true hc) rest)
      · obtain ⟨id, hid, hprefix⟩ := List.any_eq_true.1 hc
        obtain ⟨r, rfl⟩ := of_decide_eq_true hprefix
        have hidentifier : ∀ id ∈ rawCodeControls, isIdentifier id = true := by decide
        refine ⟨id, r ++ rest, hidentifier id hid, ?_, fun _ => hid⟩
        simpa using hs.symm
    · rintro rfl s hs
      cases t with
      | nil => simp at hc
      | cons d t =>
        obtain ⟨rfl, -⟩ := List.cons.inj hs
        simp at hc

/-! ## Pieces and texts -/

/-- A piece of a line of code: all its places are in code, and it leads from code to code. -/
structure Piece (t : Text) : Prop where
  places : Everywhere InCode t
  crosses : Crosses t

/-- Code in any number of lines: all its places are in code, and what is closed from code stays so
behind it. -/
structure Quiet (t : Text) : Prop where
  places : Everywhere InCode t
  passes : ∀ {s}, Closed .code s → Closed .code (t ++ s)

section

variable {s t : Text}

theorem Piece.nil : Piece [] := ⟨Everywhere.nil, Crosses.nil⟩

theorem Piece.append (hs : Piece s) (ht : Piece t) : Piece (s ++ t) :=
  ⟨hs.places.append ht.places, hs.crosses.append ht.crosses⟩

theorem Piece.quiet (h : Piece t) : Quiet t := ⟨h.places, h.crosses.closed⟩

theorem piece_of_isTame (htame : isTame [] t = true) (hcode : leadsToCode none t = true) :
    Piece t :=
  ⟨along_of_isTame htame, crosses_of_leadsToCode hcode⟩

namespace Quiet

theorem nil : Quiet [] := ⟨Everywhere.nil, id⟩

theorem append (hs : Quiet s) (ht : Quiet t) : Quiet (s ++ t) where
  places := hs.places.append ht.places
  passes h := by
    rw [List.append_assoc]
    exact hs.passes (ht.passes h)

theorem newline : Quiet ['\n'] where
  places := everywhere_of_forall_mem fun c hc => inCode_of_not_mem (by simp_all [codeMarks])
  passes h := Closed.newline rfl h

/-- A line of which only the end is left. -/
theorem line (h : Quiet t) : Quiet (t ++ ['\n']) := h.append newline

theorem joinLines {ls : List Text} (h : ∀ l ∈ ls, Quiet l) : Quiet (joinLines ls) := by
  induction ls with
  | nil => exact nil
  | cons l ls ih =>
    have := (h l (by simp)).line.append (ih fun l' hl' => h l' (by simp [hl']))
    rwa [List.append_assoc] at this

end Quiet

/-! ## Names and literals -/

/-- Whether a character can stand in a literal without being told from code: it is in ASCII and
neither ends a line nor matters to what is looked for in code. -/
def isQuotable (c : Char) : Bool := isAscii c && decide (c ∉ codeMarks ++ ['\n'])

/-- Every character of the text can stand in a literal. -/
def Quotable (t : Text) : Prop := ∀ c ∈ t, isQuotable c = true

instance (t : Text) : Decidable (Quotable t) := inferInstanceAs (Decidable (∀ c ∈ t, _))

namespace Quotable

theorem append (hs : Quotable s) (ht : Quotable t) : Quotable (s ++ t) :=
  fun c hc => (List.mem_append.1 hc).elim (hs c) (ht c)

theorem isAscii (h : Quotable t) : ∀ c ∈ t, isAscii c = true :=
  fun c hc => (Bool.and_eq_true_iff.1 (h c hc)).1

theorem not_mem {c : Char} (h : Quotable t) (hc : c ∈ codeMarks ++ ['\n']) : c ∉ t :=
  fun hm => of_decide_eq_true (Bool.and_eq_true_iff.1 (h c hm)).2 hc

theorem everywhere (h : Quotable t) : Everywhere InCode t :=
  everywhere_of_forall_mem fun _ hc =>
    inCode_of_not_mem fun hm => h.not_mem (List.mem_append_left _ hm) hc

theorem escapeSingle (h : Quotable t) : Quotable (Php.escapeSingle t) := by
  intro c hc
  rcases Php.mem_escapeSingle hc with hc | rfl
  · exact h c hc
  · decide

end Quotable

theorem piece_singleQuoted (h : Quotable t) : Piece (Php.singleQuoted t) where
  places := by
    have hquote : Quotable ['\''] := by decide
    have := (hquote.append (h.escapeSingle.append hquote)).everywhere
    rwa [List.singleton_append] at this
  crosses := crosses_singleQuoted h.isAscii (h.not_mem (by decide))

/-- On one line, a literal is in single quotes. -/
theorem literal_eq (hline : '\n' ∉ t) (hreturn : '\r' ∉ t) : Php.literal t = Php.singleQuoted t := by
  have hbreak : Php.hasLineBreak t = false := by
    refine Bool.eq_false_iff.2 fun hb => ?_
    obtain ⟨c, hc, hcb⟩ := List.any_eq_true.1 hb
    rcases Bool.or_eq_true_iff.1 hcb with hcb | hcb
    · exact hline (eq_of_beq hcb ▸ hc)
    · exact hreturn (eq_of_beq hcb ▸ hc)
  rw [Php.literal, hbreak]
  rfl

theorem piece_literal (h : Quotable t) : Piece (Php.literal t) := by
  rw [literal_eq (h.not_mem (by decide)) (h.not_mem (by decide))]
  exact piece_singleQuoted h

theorem quotable_of_isPlain (h : IsPlain t) : Quotable t := by
  intro c hc
  have hmarks : ∀ d ∈ codeMarks ++ ['\n'], isPlainChar d = false := by decide
  refine Bool.and_eq_true_iff.2 ⟨isAscii_of_isPlainChar (h c hc), decide_eq_true fun hm => ?_⟩
  exact Bool.false_ne_true ((hmarks c hm).symm.trans (h c hc))

theorem piece_of_isWord (h : IsWord t) : Piece t where
  places := (quotable_of_isPlain h.isPlain).everywhere
  crosses := by
    refine crosses_of_isPlainInCode (List.all_eq_true.2 fun c hc => ?_)
    have hmarks : ∀ d ∈ lexMarks, (d.isAlphanum || d == '_') = false := by decide
    refine Bool.and_eq_true_iff.2 ⟨h.isPlain.isAscii c hc, decide_eq_true fun hm => ?_⟩
    exact Bool.false_ne_true ((hmarks c hm).symm.trans (h c hc))

end

end WidgetCompiler.Validation
