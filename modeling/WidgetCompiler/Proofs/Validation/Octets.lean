import WidgetCompiler.Proofs.Style.Octets
import WidgetCompiler.Proofs.Validation.Lexing
import WidgetCompiler.Validation.RenderModes

/-!
# Literals that are not closed, octet by octet

A line is stored as the octets of its characters, and here it is read by places in them.  The reader moves
on by one octet, behind a backslash by two, behind a mark by its length, and at each place it cuts off
the rest of the line.  A cut can fail, and so can looking for an octet; such a reading ends with a
`Fault`.

Main statement: lines are read octet by octet as they are read character by character, and there is a
fault exactly where there is a character that cannot be read (`checkQuotes_eq`).

The reason is that all marks are ASCII.  A step from the place of a character leads to the place of the
next one if the character has one octet, and into the character otherwise, where the next cut fails
(`readLine_next`).  Behind a backslash this holds of the character that is passed over.  A line comment
alone is passed over to the delimiter behind it, whatever stands in it.
-/

namespace WidgetCompiler.Validation.Octets

open Text
open Style (isQuote)
open Style.Octets (ofText octet size splitAt? exists_here)

/-- What goes wrong in checking. -/
inductive Fault
  /-- A text cannot be cut there, or a style sheet cannot be read. -/
  | text (fault : Style.Octets.Fault)
  /-- There is no such octet or line. -/
  | index (place : Nat)
  /-- A number below zero. -/
  | difference (minuend subtrahend : Nat)
deriving DecidableEq, Repr

/-! ## What can fail -/

/-- The text between two places. -/
def slice (t : Text) (start stop : Nat) : Except Fault Text :=
  (Style.Octets.slice t start stop).mapError .text

/-- The element at a place. -/
def get {α : Type} (as : List α) (place : Nat) : Except Fault α :=
  match as[place]? with
  | some a => .ok a
  | none => .error (.index place)

/-- A difference of numbers. -/
def minus (m n : Nat) : Except Fault Nat := if n ≤ m then .ok (m - n) else .error (.difference m n)

/-! ## Literals -/

/-- What a line is read in at a place, but for its literals. -/
inductive Mode
  | markup
  | code
  | blockComment
deriving DecidableEq, Repr

theorem size_openTag : size Php.openTag = 5 := by decide

theorem size_shortEchoTag : size shortEchoTag = 3 := by decide

theorem size_closeTag : size Php.closeTag = 2 := by decide

/-- Whether a text begins with a comment that ends with its line. -/
def beginsLineComment (s : Text) : Bool :=
  startsWith s "//" || (startsWith s "#" && !startsWith s "#[")

/-- Reads a line from a place on, within a quote or none: what is reached at its end. -/
def readLine (line : Text) (mode : Mode) (quote : Option UInt8) (i : Nat) :
    Except Fault (Mode × Option UInt8) :=
  if _h : i < size line then do
    let rest ← slice line i (size line)
    match mode with
    | .markup =>
      if startsWith rest Php.openTag then readLine line .code quote (i + size Php.openTag)
      else if startsWith rest shortEchoTag then readLine line .code quote (i + size shortEchoTag)
      else readLine line .markup quote (i + 1)
    | .blockComment =>
      if startsWith rest "*/" then readLine line .code quote (i + 2)
      else readLine line .blockComment quote (i + 1)
    | .code =>
      let here ← get (ofText line) i
      match quote with
      | some q =>
        if here = octet '\\' then readLine line .code (some q) (i + 2)
        else readLine line .code (if here = q then none else some q) (i + 1)
      | none =>
        if startsWith rest Php.closeTag then readLine line .markup none (i + size Php.closeTag)
        else if startsWith rest "/*" then readLine line .blockComment none (i + 2)
        else if beginsLineComment rest then
          match cut? Php.closeTag rest with
          | some (before, _) => readLine line .markup none (i + (size before + size Php.closeTag))
          | none => return (.code, none)
        else if here = octet '\'' ∨ here = octet '"' then readLine line .code (some here) (i + 1)
        else readLine line .code none (i + 1)
  else return (mode, quote)
termination_by size line - i
decreasing_by
  all_goals
    have := size_openTag
    have := size_shortEchoTag
    have := size_closeTag
    omega

/-- The findings on literals in lines that are begun in a mode, the first of which has the given
number. -/
def checkQuotes (mode : Mode) (number : Nat) : List Text → Except Fault (List Issue)
  | [] => return []
  | line :: rest => do
    let (mode, quote) ← readLine line mode none 0
    let issues ← checkQuotes mode (number + 1) rest
    let here := quote.map fun q =>
      (Problem.openQuote (if q = octet '\'' then '\'' else '"')).issueAt number line
    return here.toList ++ issues

/-! ## Places of characters -/

variable {a s t : Text} {c q : Char} {mode : Mode} {quote : Option UInt8} {state : LexState}

theorem slice_end (a t : Text) : slice (a ++ t) (size a) (size (a ++ t)) = .ok t := by
  rw [slice, Style.Octets.slice_end]
  rfl

/-- A place within a character is none at which a text can be cut. -/
theorem slice_inside {k : Nat} (hpos : 0 < k) (hk : k < c.utf8Size) (stop : Nat) :
    ∃ fault, slice (a ++ c :: s) (size a + k) stop = .error fault := by
  have hsplit (a : Text) : splitAt? (size a + k) (a ++ c :: s) = none := by
    induction a with
    | nil =>
      obtain ⟨n, rfl⟩ := Nat.exists_eq_succ_of_ne_zero hpos.ne'
      rw [Style.Octets.size_nil, Nat.zero_add, List.nil_append, splitAt?, if_neg (by omega)]
    | cons d a ih =>
      rw [Style.Octets.size_cons, Nat.add_assoc, List.cons_append, Style.Octets.splitAt?_cons, ih]
      rfl
  refine ⟨.text (.slice (size a + k) stop), ?_⟩
  rw [slice, Style.Octets.slice, hsplit]
  split <;> rfl

theorem readLine_end {line : Text} {i : Nat} (h : size line ≤ i) :
    readLine line mode quote i = .ok (mode, quote) := by
  rw [readLine, dif_neg (Nat.not_lt.2 h)]
  rfl

theorem lt_size (a : Text) (c : Char) (s : Text) : size a < size (a ++ c :: s) := by
  have := c.utf8Size_pos
  rw [Style.Octets.size_append, Style.Octets.size_cons]
  omega

/-- Behind the first octet of a character the reading goes on only if the character has no other. -/
theorem readLine_next (a : Text) (c : Char) (s : Text) (mode : Mode) (quote : Option UInt8) :
    (readLine (a ++ c :: s) mode quote (size a + 1)).toOption
      = if isAscii c then (readLine (a ++ [c] ++ s) mode quote (size (a ++ [c]))).toOption else none := by
  cases h : isAscii c with
  | true =>
    have hshape : a ++ c :: s = a ++ [c] ++ s := by simp
    rw [if_pos rfl, Style.Octets.size_concat h, hshape]
  | false =>
    have hsize : 1 < c.utf8Size := Style.Octets.one_lt_utf8Size h
    have hlt : size a + 1 < size (a ++ c :: s) := by
      rw [Style.Octets.size_append, Style.Octets.size_cons]
      omega
    obtain ⟨fault, hfault⟩ := slice_inside (a := a) (s := s) Nat.one_pos hsize (size (a ++ c :: s))
    rw [readLine, dif_pos hlt, hfault, if_neg Bool.false_ne_true]
    rfl

theorem readLine_markup (a : Text) (c : Char) (s : Text) (quote : Option UInt8) :
    readLine (a ++ c :: s) .markup quote (size a)
      = if startsWith (c :: s) Php.openTag then
          readLine (a ++ c :: s) .code quote (size a + size Php.openTag)
        else if startsWith (c :: s) shortEchoTag then
          readLine (a ++ c :: s) .code quote (size a + size shortEchoTag)
        else readLine (a ++ c :: s) .markup quote (size a + 1) := by
  rw [readLine, dif_pos (lt_size a c s), slice_end]
  rfl

theorem readLine_blockComment (a : Text) (c : Char) (s : Text) (quote : Option UInt8) :
    readLine (a ++ c :: s) .blockComment quote (size a)
      = if startsWith (c :: s) "*/" then readLine (a ++ c :: s) .code quote (size a + 2)
        else readLine (a ++ c :: s) .blockComment quote (size a + 1) := by
  rw [readLine, dif_pos (lt_size a c s), slice_end]
  rfl

theorem readLine_quoted {here : UInt8} (h : (ofText (a ++ c :: s))[size a]? = some here) (q : UInt8) :
    readLine (a ++ c :: s) .code (some q) (size a)
      = if here = octet '\\' then readLine (a ++ c :: s) .code (some q) (size a + 2)
        else readLine (a ++ c :: s) .code (if here = q then none else some q) (size a + 1) := by
  rw [readLine, dif_pos (lt_size a c s), slice_end, get, h]
  rfl

theorem readLine_code {here : UInt8} (h : (ofText (a ++ c :: s))[size a]? = some here) :
    readLine (a ++ c :: s) .code none (size a)
      = if startsWith (c :: s) Php.closeTag then
          readLine (a ++ c :: s) .markup none (size a + size Php.closeTag)
        else if startsWith (c :: s) "/*" then readLine (a ++ c :: s) .blockComment none (size a + 2)
        else if beginsLineComment (c :: s) then
          match cut? Php.closeTag (c :: s) with
          | some (before, _) =>
            readLine (a ++ c :: s) .markup none (size a + (size before + size Php.closeTag))
          | none => .ok (.code, none)
        else if here = octet '\'' ∨ here = octet '"' then
          readLine (a ++ c :: s) .code (some here) (size a + 1)
        else readLine (a ++ c :: s) .code none (size a + 1) := by
  rw [readLine, dif_pos (lt_size a c s), slice_end, get, h]
  rfl

/-! ## Reading a line -/

/-- How a state is kept while a line is read, and at its end. -/
def kept : LexState → Mode × Option UInt8
  | .markup => (.markup, none)
  | .code => (.code, none)
  | .quoted q => (.code, some (octet q))
  | .blockComment => (.blockComment, none)
  | .lineComment => (.code, none)

/-- The states that are told by what is kept. -/
def Kept (state : LexState) : Prop := state ≠ .lineComment ∧ ∀ q ∈ state.openQuote?, isQuote q = true

/-- What is reached at the end of a line that is read from the place behind `a` on, if it can be read. -/
def behind (a s : Text) (state : LexState) : Option (Mode × Option UInt8) :=
  (readLine (a ++ s) (kept state).1 (kept state).2 (size a)).toOption

/-- Texts shorter than that are read octet by octet as they are read character by character. -/
def AgreesBelow (n : Nat) : Prop :=
  ∀ a t state, t.length < n → Kept state → behind a t state = (lexLine state t).map kept

theorem kept_markup : Kept .markup := by simp [Kept, LexState.openQuote?]

theorem kept_code : Kept .code := by simp [Kept, LexState.openQuote?]

theorem kept_blockComment : Kept .blockComment := by simp [Kept, LexState.openQuote?]

theorem kept_quoted (hq : isQuote q = true) : Kept (.quoted q) := by simpa [Kept, LexState.openQuote?]

theorem exists_of_startsWith {mark : Text} (h : startsWith s mark = true) : ∃ t, s = mark ++ t := by
  obtain ⟨t, ht⟩ := Option.isSome_iff_exists.1 h
  exact ⟨t, after?_eq_some.1 ht⟩

theorem ne_of_startsWith {mark : Text} (h : ¬ startsWith s mark = true) (t : Text) : mark ++ t ≠ s := by
  rintro rfl
  exact h (Option.isSome_iff_exists.2 ⟨t, after?_append mark t⟩)

theorem lexLine_of_beginsLineComment (h : beginsLineComment s = true) : lexLine .code s
    = match cut? Php.closeTag s with
      | some (_, rest) => lexLine .markup rest
      | none => some .lineComment := by
  rcases Bool.or_eq_true_iff.1 h with hslashes | hhash
  · obtain ⟨t, rfl⟩ := exists_of_startsWith hslashes
    have hlex : lexLine .code (("//" : Text) ++ t) = lexLine .lineComment t := rfl
    have hcut : cut? Php.closeTag (("//" : Text) ++ t)
        = (cut? Php.closeTag t).map fun cut => ('/' :: '/' :: cut.1, cut.2) := by
      simp [cut?, after?, Php.closeTag, Function.comp_def]
    rw [hlex, lexLine_lineComment, hcut]
    cases cut? Php.closeTag t <;> rfl
  · obtain ⟨hbegins, hattribute⟩ := Bool.and_eq_true_iff.1 hhash
    obtain ⟨t, rfl⟩ := exists_of_startsWith hbegins
    have hlex : lexLine .code (("#" : Text) ++ t) = lexLine .lineComment t := by
      change lexLine .code ('#' :: t) = _
      rw [lexLine]
      rintro r rfl
      have hbracket : startsWith (("#" : Text) ++ '[' :: r) "#[" = true :=
        Option.isSome_iff_exists.2 ⟨r, after?_append "#[" r⟩
      rw [hbracket] at hattribute
      exact absurd hattribute Bool.false_ne_true
    have hcut : cut? Php.closeTag (("#" : Text) ++ t)
        = (cut? Php.closeTag t).map fun cut => ('#' :: cut.1, cut.2) := by
      simp [cut?, after?, Php.closeTag]
    rw [hlex, lexLine_lineComment, hcut]
    cases cut? Php.closeTag t <;> rfl

/-- Elsewhere in code a character is read by itself. -/
theorem lexLine_code (hclose : ¬ startsWith (c :: s) Php.closeTag = true)
    (hblock : ¬ startsWith (c :: s) "/*" = true) (hcomment : ¬ beginsLineComment (c :: s) = true) :
    lexLine .code (c :: s)
      = if isAscii c then lexLine (if isQuote c then .quoted c else .code) s else none := by
  obtain ⟨hslashes, hhash⟩ := not_or.1 (mt Bool.or_eq_true_iff.2 hcomment)
  by_cases hattribute : startsWith (c :: s) "#[" = true
  · obtain ⟨t, ht⟩ := exists_of_startsWith hattribute
    obtain ⟨rfl, rfl⟩ := List.cons.inj ht
    rfl
  · have hc : c ≠ '#' := by
      rintro rfl
      refine hhash (Bool.and_eq_true_iff.2 ⟨?_, ?_⟩)
      · exact Option.isSome_iff_exists.2 ⟨s, after?_eq_some.2 rfl⟩
      · rw [Bool.eq_false_iff.2 hattribute]
        rfl
    by_cases hsingle : c = '\''
    · subst hsingle
      rfl
    by_cases hdouble : c = '"'
    · subst hdouble
      rfl
    have hplain : LexState.code.step (c :: s) = (0, .code) := by
      refine LexState.step_plain (.inl rfl) fun mark hm t ht => ?_
      rcases (by simpa [LexState.marks] using hm : mark = _ ∨ mark = _ ∨ mark = _ ∨ mark = _
        ∨ mark = _ ∨ mark = _ ∨ mark = _) with rfl | rfl | rfl | rfl | rfl | rfl | rfl
      · exact ne_of_startsWith hclose t ht
      · exact ne_of_startsWith hblock t ht
      · exact ne_of_startsWith hslashes t ht
      · exact ne_of_startsWith hattribute t ht
      · exact hc (List.cons.inj ht).1.symm
      · exact hsingle (List.cons.inj ht).1.symm
      · exact hdouble (List.cons.inj ht).1.symm
    have hquote : ¬ isQuote c = true := by simp [isQuote, hsingle, hdouble]
    rw [lexLine_plain (by simp) hplain, if_neg hquote]

namespace AgreesBelow

/-- Behind a mark. -/
theorem mark {mark : Text} {n : Nat} (h : AgreesBelow s.length) (hs : s = mark ++ t) (hmark : mark ≠ [])
    (hn : size mark = n) (hstate : Kept state) (a : Text) :
    (readLine (a ++ s) (kept state).1 (kept state).2 (size a + n)).toOption
      = (lexLine state t).map kept := by
  have hlt : t.length < s.length := by
    have := List.length_pos_iff.2 hmark
    rw [hs, List.length_append]
    omega
  rw [← h (a ++ mark) t state hlt hstate, hs, behind, List.append_assoc, Style.Octets.size_append, hn]

/-- Behind the first octet of a character. -/
theorem next (h : AgreesBelow (c :: s).length) (hstate : Kept state) (a : Text) :
    (readLine (a ++ c :: s) (kept state).1 (kept state).2 (size a + 1)).toOption
      = (if isAscii c then lexLine state s else none).map kept := by
  rw [readLine_next]
  split
  · exact h (a ++ [c]) s state (Nat.lt_succ_self _) hstate
  · rfl

theorem markup (h : AgreesBelow (c :: s).length) (a : Text) :
    behind a (c :: s) .markup = (lexLine .markup (c :: s)).map kept := by
  change (readLine (a ++ c :: s) .markup none (size a)).toOption = _
  rw [readLine_markup]
  by_cases hopen : startsWith (c :: s) Php.openTag = true
  · obtain ⟨t, ht⟩ := exists_of_startsWith hopen
    rw [if_pos hopen]
    refine (h.mark ht (by decide) rfl kept_code a).trans ?_
    rw [ht]
    rfl
  · by_cases hecho : startsWith (c :: s) shortEchoTag = true
    · obtain ⟨t, ht⟩ := exists_of_startsWith hecho
      rw [if_neg hopen, if_pos hecho]
      refine (h.mark ht (by decide) rfl kept_code a).trans ?_
      rw [ht]
      rfl
    · have hplain : LexState.markup.step (c :: s) = (0, .markup) := by
        refine LexState.step_plain (.inl rfl) fun mark hm t ht => ?_
        rcases (by simpa [LexState.marks] using hm : mark = _ ∨ mark = _) with rfl | rfl
        · exact ne_of_startsWith hopen t ht
        · exact ne_of_startsWith hecho t ht
      rw [if_neg hopen, if_neg hecho, lexLine_plain (by simp) hplain]
      exact h.next kept_markup a

theorem blockComment (h : AgreesBelow (c :: s).length) (a : Text) :
    behind a (c :: s) .blockComment = (lexLine .blockComment (c :: s)).map kept := by
  change (readLine (a ++ c :: s) .blockComment none (size a)).toOption = _
  rw [readLine_blockComment]
  by_cases hend : startsWith (c :: s) "*/" = true
  · obtain ⟨t, ht⟩ := exists_of_startsWith hend
    rw [if_pos hend]
    refine (h.mark ht (by decide) (by decide) kept_code a).trans ?_
    rw [ht]
    rfl
  · have hplain : LexState.blockComment.step (c :: s) = (0, .blockComment) := by
      refine LexState.step_plain (.inl rfl) fun mark hm t ht => ?_
      obtain rfl : mark = _ := by simpa [LexState.marks] using hm
      exact ne_of_startsWith hend t ht
    rw [if_neg hend, lexLine_plain (by simp) hplain]
    exact h.next kept_blockComment a

/-- Behind a backslash two octets are passed over, and the place is that of a character only if the
character behind the backslash has one. -/
theorem quoted (h : AgreesBelow (c :: s).length) (hq : isQuote q = true) (a : Text) :
    behind a (c :: s) (.quoted q) = (lexLine (.quoted q) (c :: s)).map kept := by
  obtain ⟨here, hhere, hiff⟩ := exists_here a c s
  change (readLine (a ++ c :: s) .code (some (octet q)) (size a)).toOption = _
  rw [readLine_quoted hhere, lexLine.eq_def]
  simp only [hiff '\\' rfl, hiff q (Style.Octets.isAscii_of_isQuote hq)]
  by_cases hback : c = '\\'
  · subst hback
    rw [if_pos rfl, if_pos rfl]
    have hsize : size (a ++ ['\\']) = size a + 1 := Style.Octets.size_concat rfl a
    cases s with
    | nil =>
      rw [readLine_end (hsize ▸ Nat.le_succ _)]
      rfl
    | cons d s =>
      have hplace : size a + 2 = size (a ++ ['\\']) + 1 := by rw [hsize]
      have hshape : a ++ '\\' :: d :: s = a ++ ['\\'] ++ d :: s := by simp
      have hbelow : AgreesBelow (d :: s).length := fun a t state ht => h a t state (Nat.lt_succ_of_lt ht)
      rw [hplace, hshape]
      exact hbelow.next (kept_quoted hq) (a ++ ['\\'])
  · rw [if_neg hback, if_neg hback]
    split
    · exact h.next kept_code a
    · exact h.next (kept_quoted hq) a

theorem code (h : AgreesBelow (c :: s).length) (a : Text) :
    behind a (c :: s) .code = (lexLine .code (c :: s)).map kept := by
  obtain ⟨here, hhere, hiff⟩ := exists_here a c s
  change (readLine (a ++ c :: s) .code none (size a)).toOption = _
  rw [readLine_code hhere]
  by_cases hclose : startsWith (c :: s) Php.closeTag = true
  · obtain ⟨t, ht⟩ := exists_of_startsWith hclose
    rw [if_pos hclose]
    refine (h.mark ht (by decide) rfl kept_markup a).trans ?_
    rw [ht]
    rfl
  rw [if_neg hclose]
  by_cases hblock : startsWith (c :: s) "/*" = true
  · obtain ⟨t, ht⟩ := exists_of_startsWith hblock
    rw [if_pos hblock]
    refine (h.mark ht (by decide) (by decide) kept_blockComment a).trans ?_
    rw [ht]
    rfl
  rw [if_neg hblock]
  by_cases hcomment : beginsLineComment (c :: s) = true
  · -- a line comment is passed over in one step
    rw [if_pos hcomment, lexLine_of_beginsLineComment hcomment]
    cases hcut : cut? Php.closeTag (c :: s) with
    | none => rfl
    | some found =>
      have hne : found.1 ++ Php.closeTag ≠ [] := by simp [Php.closeTag]
      exact h.mark (cut?_eq_some hcut) hne (Style.Octets.size_append _ _) kept_markup a
  · rw [if_neg hcomment, lexLine_code hclose hblock hcomment]
    by_cases hquote : isQuote c = true
    · have hascii := Style.Octets.isAscii_of_isQuote hquote
      have hoctet : here = octet '\'' ∨ here = octet '"' := by
        rw [hiff '\'' rfl, hiff '"' rfl]
        simpa [isQuote, or_comm] using hquote
      rw [if_pos hoctet, if_pos hquote, (hiff c hascii).2 rfl]
      exact h.next (kept_quoted hquote) a
    · have hoctet : ¬ (here = octet '\'' ∨ here = octet '"') := by
        rw [hiff '\'' rfl, hiff '"' rfl]
        simpa [isQuote, or_comm] using hquote
      rw [if_neg hoctet, if_neg hquote]
      exact h.next kept_code a

end AgreesBelow

/-- From each place on, what is read octet by octet is what is read character by character. -/
theorem behind_eq (hstate : Kept state) (a s : Text) : behind a s state = (lexLine state s).map kept := by
  induction hn : s.length using Nat.strongRecOn generalizing a s state with
  | _ n ih =>
    subst hn
    have hbelow : AgreesBelow s.length := fun a t state ht hstate => ih t.length ht hstate a t rfl
    cases s with
    | nil =>
      rw [behind, List.append_nil, readLine_end (Nat.le_refl _), lexLine]
      rfl
    | cons c s =>
      cases state with
      | markup => exact hbelow.markup a
      | code => exact hbelow.code a
      | quoted q => exact hbelow.quoted (hstate.2 q rfl) a
      | blockComment => exact hbelow.blockComment a
      | lineComment => exact absurd rfl hstate.1

/-! ## The check of literals -/

theorem toOption_eq_some {α : Type} {x : Except Fault α} {a : α} : x.toOption = some a ↔ x = .ok a := by
  cases x <;> simp [Except.toOption]

theorem toOption_eq_none {α : Type} {x : Except Fault α} :
    x.toOption = none ↔ ∃ fault, x = .error fault := by
  cases x <;> simp [Except.toOption]

/-- Lines are read octet by octet as they are read character by character, or not at all. -/
theorem checkQuotes_eq (state : LexState) (hstate : state.nextLine = state) (number : Nat) (ls : List Text) :
    (checkQuotes (kept state).1 number ls).toOption = quoteIssues state number ls := by
  induction ls generalizing state number with
  | nil => rfl
  | cons line ls ih =>
    have hclosed : state.openQuote? = none ∧ (kept state).2 = none ∧ state ≠ .lineComment := by
      rw [← hstate]
      cases state <;> exact ⟨rfl, rfl, by rintro ⟨⟩⟩
    have hquote : ∀ q ∈ state.openQuote?, isQuote q = true := by simp [hclosed.1]
    have hread : behind [] line state = (lexLine state line).map kept :=
      behind_eq ⟨hclosed.2.2, hquote⟩ [] line
    rw [behind, List.nil_append, hclosed.2.1, Style.Octets.size_nil] at hread
    rw [checkQuotes, quoteIssues]
    cases hlex : lexLine state line with
    | none =>
      rw [hlex] at hread
      obtain ⟨fault, hfault⟩ := toOption_eq_none.1 hread
      rw [hfault]
      rfl
    | some last =>
      rw [hlex] at hread
      have hlast : last = reached state line := by
        rw [lexLine_eq] at hlex
        split at hlex
        · exact (Option.some.inj hlex).symm
        · exact absurd hlex (by simp)
      have hmode : (kept last).1 = (kept last.nextLine).1 := by cases last <;> rfl
      have hrest := ih last.nextLine (nextLine_nextLine last) (number + 1)
      have hopen : (kept last).2.map (fun q =>
            (Problem.openQuote (if q = octet '\'' then '\'' else '"')).issueAt number line)
          = last.openQuote?.map fun q => (Problem.openQuote q).issueAt number line := by
        cases last with
        | quoted q =>
          have hq : isQuote q = true := isQuote_of_reached hquote line q (by rw [← hlast]; rfl)
          have hname : (if octet q = octet '\'' then '\'' else '"') = q := by
            rcases (by simpa [isQuote] using hq : q = '"' ∨ q = '\'') with rfl | rfl <;> decide
          simp [kept, LexState.openQuote?, hname]
        | _ => rfl
      rw [toOption_eq_some.1 hread]
      change (((checkQuotes (kept last).1 (number + 1) ls).bind fun issues =>
        .ok (((kept last).2.map _).toList ++ issues) : Except Fault _)).toOption = _
      rw [hmode, hopen]
      simp only [← hrest]
      cases checkQuotes (kept last.nextLine).1 (number + 1) ls <;> rfl

end WidgetCompiler.Validation.Octets
