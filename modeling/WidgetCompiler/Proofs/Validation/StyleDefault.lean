import WidgetCompiler.Control.Printer
import WidgetCompiler.Proofs.Php.Literals
import WidgetCompiler.Proofs.Text.Extract
import WidgetCompiler.Proofs.Text.Pattern
import WidgetCompiler.Proofs.Text.Run
import WidgetCompiler.Proofs.Widget.Literals
import WidgetCompiler.Validation.Markers

/-!
# The style sheet is read back

One check looks for the default of the control that holds the widget's style sheet, and reads what the
literal stands for.  On the code that registers the section of custom code this is the style sheet
itself, whatever stands in it and in the script, and whatever the text domain is.

Two things have to be seen.  The name of the control stands nowhere before its place, though the text
domain does, and that is because an apostrophe in a literal has a backslash before it
(`lacks_singleQuoted`).  And the reader comes from the opening of the list to the key `default` without
stopping: it passes over characters that are neither quotes nor brackets and over whole literals, and
none of these is the key (`Skips`).

Without a style sheet the control has no default, and the reader stops at the end of the list.  Then
the name must not stand in the script, for the reader would take a list that follows it there for that
of the control.  The script is written without its carriage returns, and so the name must not come
about when they are dropped either (`findValue?_splitName`).
-/

namespace WidgetCompiler.Validation

open Text Php

variable {t s : Text} {c : Char}

/-! ## Bodies of literals -/

theorem quotedBody?_cons {quote : Char} (hquote : c ≠ quote) (hslash : c ≠ '\\') (s : Text) :
    quotedBody? quote (c :: s) = (quotedBody? quote s).map fun (body, rest) => (c :: body, rest) := by
  rw [quotedBody?]
  · rw [if_neg hquote, if_neg hslash]
  · rintro d r rfl -
    exact hslash rfl

/-- What is escaped is the body of the literal. -/
theorem quotedBody?_escape {marks : Text} {escape : Char → Text} {quote : Char}
    (h : Escapes marks escape) (hquote : quote ∈ marks) (hslash : quote ≠ '\\') (t rest : Text) :
    quotedBody? quote (t.flatMap escape ++ quote :: rest) = some (t.flatMap escape, rest) := by
  induction t with
  | nil =>
    rw [List.flatMap_nil, List.nil_append, quotedBody?]
    · rw [if_pos rfl]
    · rintro d r rfl -
      exact hslash rfl
  | cons c t ih =>
    rw [List.flatMap_cons, List.append_assoc]
    rcases h c with hc | ⟨d, hd, hc⟩ | ⟨d, hd, hmark, hc⟩
    · rw [hc, List.nil_append, List.nil_append]
      exact ih
    · have hpair (s : Text) : quotedBody? quote ('\\' :: d :: s)
          = (quotedBody? quote s).map fun (body, rest) => ('\\' :: d :: body, rest) := by
        rw [quotedBody?, if_neg hd]
      rw [hc, List.cons_append, List.singleton_append, hpair, ih]
      rfl
    · have hne : d ≠ quote := fun e => hmark (e ▸ hquote)
      rw [hc, List.singleton_append, quotedBody?_cons hne hd, ih]
      rfl

theorem quotedBody?_escapeSingle (t rest : Text) :
    quotedBody? '\'' (escapeSingle t ++ '\'' :: rest) = some (escapeSingle t, rest) :=
  quotedBody?_escape escapes_single (List.mem_singleton.2 rfl) (by decide) t rest

theorem quotedBody?_escapeDouble (t rest : Text) :
    quotedBody? '"' (escapeDouble t ++ '"' :: rest) = some (escapeDouble t, rest) :=
  quotedBody?_escape escapes_double List.mem_cons_self (by decide) t rest

theorem length_of_quotedBody? {quote : Char} {body rest : Text}
    (h : quotedBody? quote s = some (body, rest)) : rest.length < s.length := by
  fun_induction quotedBody? quote s generalizing body rest with
  | case1 => simp at h
  | case2 => simp at h
  | case3 c s _ ih =>
    obtain ⟨⟨body', rest'⟩, hbody, he⟩ := Option.map_eq_some_iff.1 h
    obtain ⟨-, rfl⟩ := Prod.mk.inj he
    have hlt := ih hbody
    simp only [List.length_cons]
    omega
  | case4 s =>
    obtain ⟨-, rfl⟩ := Prod.mk.inj (Option.some.inj h)
    exact Nat.lt_succ_self _
  | case5 => simp at h
  | case6 c s _ _ _ ih =>
    obtain ⟨⟨body', rest'⟩, hbody, he⟩ := Option.map_eq_some_iff.1 h
    obtain ⟨-, rfl⟩ := Prod.mk.inj he
    have hlt := ih hbody
    simp only [List.length_cons]
    omega

/-! ## The entries of a list -/

/-- The literal of the first entry with the key `default`, with as many steps as the text needs. -/
def listDefault? (s : Text) : Option (Char × Text × Text) := defaultIn? (s.length + 1) s

/-- A step of the reader where no such entry begins. -/
theorem defaultIn?_cons (h : defaultEntry? (c :: s) = none) (n : Nat) :
    defaultIn? (n + 1) (c :: s) = if c = ']' then none
      else if Style.isQuote c then (quotedBody? c s).bind fun (_, rest) => defaultIn? n rest
      else defaultIn? n s := by
  simp only [defaultIn?, h]
  cases quotedBody? c s <;> rfl

/-- More steps than the text has characters are all the same. -/
theorem defaultIn?_eq {n : Nat} (h : s.length < n) : defaultIn? n s = listDefault? s := by
  have along (n m : Nat) (s : Text) (hn : s.length < n) (hm : s.length < m) :
      defaultIn? n s = defaultIn? m s := by
    induction n generalizing m s with
    | zero => exact absurd hn (Nat.not_lt_zero _)
    | succ n ih =>
      obtain ⟨m, rfl⟩ : ∃ k, m = k + 1 := ⟨m - 1, by omega⟩
      cases hentry : defaultEntry? s with
      | some found => simp only [defaultIn?, hentry]
      | none =>
        cases s with
        | nil => simp only [defaultIn?, hentry]
        | cons c r =>
          rw [List.length_cons] at hn hm
          have hr : defaultIn? n r = defaultIn? m r := ih m r (by omega) (by omega)
          have hrest : (quotedBody? c r).bind (fun (_, rest) => defaultIn? n rest)
              = (quotedBody? c r).bind fun (_, rest) => defaultIn? m rest := by
            cases hbody : quotedBody? c r with
            | none => rfl
            | some found =>
              have hlt := length_of_quotedBody? hbody
              exact ih m found.2 (by omega) (by omega)
          rw [defaultIn?_cons hentry, defaultIn?_cons hentry, hr, hrest]
  exact along n (s.length + 1) s h (Nat.lt_succ_self _)

theorem no_entry_cons (hc : c ≠ '\'') (s : Text) : defaultEntry? (c :: s) = none := by
  have hafter : after? "'default'" (c :: s) = none := by
    refine Option.eq_none_iff_forall_ne_some.2 fun r hr => hc ?_
    exact (List.cons.inj (after?_eq_some.1 hr)).1
  rw [ defaultEntry?, hafter]
  rfl

theorem listDefault?_entry {found : Char × Text × Text} (h : defaultEntry? s = some found) :
    listDefault? s = some found := by
  simp only [listDefault?, defaultIn?, h]

theorem listDefault?_bracket (s : Text) : listDefault? (']' :: s) = none := by
  rw [listDefault?, defaultIn?_cons (no_entry_cons (by decide) s), if_pos rfl]

/-- The reader of a list passes over the text, whatever follows. -/
def Skips (t : Text) : Prop := ∀ rest, listDefault? (t ++ rest) = listDefault? rest

namespace Skips

theorem append (hs : Skips s) (ht : Skips t) : Skips (s ++ t) := by
  intro rest
  rw [List.append_assoc, hs, ht]

/-- Outside literals only the bracket that ends the list stops the reader. -/
theorem plain (h : ∀ c ∈ t, c ∉ ("]'\"" : Text)) : Skips t := by
  induction t with
  | nil => exact fun rest => rfl
  | cons c t ih =>
    intro rest
    have hc : c ≠ ']' ∧ c ≠ '\'' ∧ c ≠ '"' := by simpa using h c List.mem_cons_self
    have hquote : Style.isQuote c = false := by simp [Style.isQuote, hc]
    rw [List.cons_append, listDefault?, defaultIn?_cons (no_entry_cons hc.2.1 _), if_neg hc.1,
      hquote, if_neg Bool.false_ne_true, defaultIn?_eq (by simp),
      ih fun d hd => h d (List.mem_cons_of_mem c hd)]

/-- A literal is passed over as a whole, unless it is the key. -/
theorem literal {quote : Char} {body : Text} (hquote : Style.isQuote quote = true)
    (hbody : ∀ rest, quotedBody? quote (body ++ quote :: rest) = some (body, rest))
    (hkey : ∀ rest, defaultEntry? (quote :: (body ++ quote :: (t ++ rest))) = none)
    (ht : Skips t) : Skips (quote :: (body ++ quote :: t)) := by
  intro rest
  have hne : quote ≠ ']' := by
    rintro rfl
    exact absurd hquote (by decide)
  have hshape : quote :: (body ++ quote :: t) ++ rest = quote :: (body ++ quote :: (t ++ rest)) := by
    simp
  have hbehind : defaultIn? (quote :: (body ++ quote :: (t ++ rest))).length (t ++ rest)
      = listDefault? rest := by
    rw [defaultIn?_eq (by simp; omega), ht]
  rw [hshape, listDefault?, defaultIn?_cons (hkey rest), if_neg hne, if_pos hquote, hbody]
  exact hbehind

end Skips

/-- A literal in single quotes is the key only if it is that word. -/
theorem after?_singleQuoted (t rest : Text) : after? "'default'" (singleQuoted t ++ rest)
    = if escapeSingle t = "default" then some rest else none := by
  have hshape : singleQuoted t ++ rest = '\'' :: (escapeSingle t ++ '\'' :: rest) := by
    simp [singleQuoted]
  rw [hshape]
  cases hafter : after? "'default'" ('\'' :: (escapeSingle t ++ '\'' :: rest)) with
  | none =>
    split
    · next hkey =>
      rw [hkey] at hafter
      exact absurd hafter (by simp [after?])
    · rfl
  | some r =>
    -- the same text is read once as the key and once as the literal
    obtain htail : escapeSingle t ++ '\'' :: rest = ("default'" : Text) ++ r :=
      (List.cons.inj (after?_eq_some.1 hafter)).2
    have hread : quotedBody? '\'' (("default'" : Text) ++ r) = some (("default" : Text), r) := rfl
    rw [← htail, quotedBody?_escapeSingle] at hread
    obtain ⟨hkey, rfl⟩ := Prod.mk.inj (Option.some.inj hread)
    rw [if_pos hkey]

/-- What follows a literal that is no key. -/
def Behind (c : Char) : Prop := isBlank c = false ∧ c ≠ '=' ∧ c ∉ ("]'\"" : Text)

instance (c : Char) : Decidable (Behind c) := inferInstanceAs (Decidable (_ ∧ _))

theorem skips_singleQuoted (hc : Behind c) (t : Text) : Skips (singleQuoted t ++ [c]) := by
  have hkey (rest : Text) : defaultEntry? (singleQuoted t ++ c :: rest) = none := by
    rw [ defaultEntry?, after?_singleQuoted]
    split_ifs with h
    · have hblanks : afterBlanks (c :: rest) = c :: rest :=
        List.dropWhile_cons_of_neg (by simp [hc.1])
      have harrow : after? "=>" (c :: rest) = none :=
        Option.eq_none_iff_forall_ne_some.2 fun r hr =>
          hc.2.1 (List.cons.inj (after?_eq_some.1 hr)).1
      simp only [Option.map_some, hblanks, harrow, Option.map_none]
    · rfl
  have hskips := Skips.literal (t := [c]) (by decide) (quotedBody?_escapeSingle t)
    (fun rest => by simpa [singleQuoted] using hkey rest)
    (Skips.plain fun d hd => List.mem_singleton.1 hd ▸ hc.2.2)
  simpa [singleQuoted] using hskips

theorem skips_doubleQuoted (hc : Behind c) (t : Text) : Skips (doubleQuoted t ++ [c]) := by
  have hskips := Skips.literal (t := [c]) (by decide) (quotedBody?_escapeDouble t)
    (fun rest => no_entry_cons (by decide) _)
    (Skips.plain fun d hd => List.mem_singleton.1 hd ▸ hc.2.2)
  simpa [doubleQuoted] using hskips

theorem skips_literal (hc : Behind c) (t : Text) : Skips (Php.literal t ++ [c]) := by
  rw [Php.literal]
  split
  · exact skips_doubleQuoted hc t
  · exact skips_singleQuoted hc t

theorem skips_localized (domain t : Text) : Skips (localized domain t ++ [',']) := by
  have hcall : Skips "esc_html__(" := Skips.plain (by decide)
  have hspace : Skips [' '] := Skips.plain (by decide)
  have hcomma : Skips [','] := Skips.plain (by decide)
  have ht : Skips (Php.literal t ++ [',']) := skips_literal (by decide) t
  have hdomain : Skips (singleQuoted domain ++ [')']) := skips_singleQuoted (by decide) domain
  have := (((hcall.append ht).append hspace).append hdomain).append hcomma
  unfold localized
  simpa using this

/-- A line of the list with another key. -/
theorem skips_entry (key value : Text) (hkey : escapeSingle key = key) (hne : key ≠ "default")
    (h : Skips (value ++ [','])) :
    Skips (joinLines [callLine 2 ('\'' :: key ++ "' => " ++ value ++ ",")]) := by
  have hindent : Skips (callLine 2 []) := Skips.plain (by decide)
  have harrow : Skips " => " := Skips.plain (by decide)
  have hline : Skips "\n" := Skips.plain (by decide)
  have hentry (rest : Text) : defaultEntry? (singleQuoted key ++ rest) = none := by
    rw [ defaultEntry?, after?_singleQuoted, if_neg (hkey.symm ▸ hne)]
    rfl
  have hliteral := Skips.literal (t := " => " ++ (value ++ [','])) (by decide)
    (quotedBody?_escapeSingle key) (fun rest => by simpa [singleQuoted] using hentry _)
    (harrow.append h)
  have := (hindent.append hliteral).append hline
  simpa [hkey, callLine, joinLines] using this

/-! ## The list of a code editor -/

/-- The lines of a code editor's list before its default. -/
def editorEntries (domain label language : Text) : List Text :=
  [callLine 2 ("'label' => " ++ localized domain label ++ ","),
    callLine 2 "'type' => \\Elementor\\Controls_Manager::CODE,",
    callLine 2 ("'language' => " ++ singleQuoted language ++ ","), callLine 2 "'rows' => 20,"]

/-- The line of a code editor's default, if it has one. -/
def editorDefault (code : Text) : List Text :=
  if code.isEmpty then [] else [callLine 2 ("'default' => " ++ doubleQuoted code ++ ",")]

theorem phpLines_codeControl (domain id label language code description : Text) :
    (codeControl id label language code description).phpLines domain
      = [callLine 0 "$this->add_control(", callLine 1 (singleQuoted id ++ ","), callLine 1 "["]
        ++ editorEntries domain label language ++ editorDefault code
        ++ [callLine 2 ("'description' => " ++ localized domain description ++ ","), callLine 1 "]",
          callLine 0 ");"] := by
  cases code <;> rfl

theorem skips_editorEntries (domain label language : Text) :
    Skips (joinLines (editorEntries domain label language)) := by
  have hlabel : Skips (joinLines [callLine 2 ("'label' => " ++ localized domain label ++ ",")]) :=
    skips_entry "label" (localized domain label) (by decide) (by decide) (skips_localized domain label)
  have htype : Skips (joinLines [callLine 2 "'type' => \\Elementor\\Controls_Manager::CODE,"]) :=
    skips_entry "type" "\\Elementor\\Controls_Manager::CODE" (by decide) (by decide)
      (Skips.plain (by decide))
  have hlanguage : Skips (joinLines [callLine 2 ("'language' => " ++ singleQuoted language ++ ",")]) :=
    skips_entry "language" (singleQuoted language) (by decide) (by decide)
      (skips_singleQuoted (by decide) language)
  have hrows : Skips (joinLines [callLine 2 "'rows' => 20,"]) :=
    skips_entry "rows" "20" (by decide) (by decide) (Skips.plain (by decide))
  have := ((hlabel.append htype).append hlanguage).append hrows
  simp only [← joinLines_append] at this
  exact this

theorem entry_default (code rest : Text) :
    defaultEntry? (("'default' => " : Text) ++ (doubleQuoted code ++ rest))
      = some ('"', escapeDouble code, rest) := by
  have hshape : doubleQuoted code ++ rest = '"' :: (escapeDouble code ++ '"' :: rest) := by
    simp [doubleQuoted]
  have hkey (s : Text) : after? "'default'" (("'default' => " : Text) ++ s) = some (" => " ++ s) :=
    after?_append "'default'" (" => " ++ s)
  have harrow (s : Text) : after? "=>" (afterBlanks (" => " ++ s)) = some (" " ++ s) :=
    after?_append "=>" (" " ++ s)
  have hliteral (s : Text) : quotedLiteral? (afterBlanks (" " ++ '"' :: s))
      = (quotedBody? '"' s).map fun (body, rest) => ('"', body, rest) := rfl
  rw [hshape, defaultEntry?, hkey]
  simp only [Option.map_some, harrow, hliteral, quotedBody?_escapeDouble]

/-- The default of a code editor is found behind the opening of its list. -/
theorem listDefault?_editor (domain label language : Text) {code : Text} (hcode : code ≠ []) (more : List Text) :
    ∃ rest, listDefault? ('\n' :: joinLines (editorEntries domain label language ++ editorDefault code
      ++ more)) = some ('"', escapeDouble code, rest) := by
  have hline : Skips "\n" := Skips.plain (by decide)
  have hindent : Skips (callLine 2 []) := Skips.plain (by decide)
  have hdefault : editorDefault code = [callLine 2 ("'default' => " ++ doubleQuoted code ++ ",")] := by
    simp [editorDefault, hcode]
  refine ⟨',' :: '\n' :: joinLines more, ?_⟩
  have hshape : '\n' :: joinLines (editorEntries domain label language ++ editorDefault code ++ more)
      = ("\n" : Text) ++ joinLines (editorEntries domain label language) ++ callLine 2 []
        ++ (("'default' => " : Text) ++ (doubleQuoted code ++ ',' :: '\n' :: joinLines more)) := by
    rw [hdefault]
    simp [callLine, joinLines]
  rw [hshape, (hline.append (skips_editorEntries domain label language)).append hindent]
  exact listDefault?_entry (entry_default code _)

/-- Without a default the reader comes to the end of the list. -/
theorem listDefault?_editor_nil (domain label language description : Text) (more : List Text) :
    listDefault? ('\n' :: joinLines (editorEntries domain label language ++ editorDefault []
      ++ callLine 2 ("'description' => " ++ localized domain description ++ ",") :: callLine 1 "]" :: more))
      = none := by
  have hline : Skips "\n" := Skips.plain (by decide)
  have hdescription : Skips
      (joinLines [callLine 2 ("'description' => " ++ localized domain description ++ ",")]) :=
    skips_entry "description" (localized domain description) (by decide) (by decide)
      (skips_localized domain description)
  have hindent : Skips (callLine 1 []) := Skips.plain (by decide)
  have hshape : '\n' :: joinLines (editorEntries domain label language ++ editorDefault []
      ++ callLine 2 ("'description' => " ++ localized domain description ++ ",") :: callLine 1 "]" :: more)
      = ("\n" : Text) ++ joinLines (editorEntries domain label language)
        ++ joinLines [callLine 2 ("'description' => " ++ localized domain description ++ ",")]
        ++ callLine 1 [] ++ ']' :: '\n' :: joinLines more := by
    simp [editorDefault, callLine, joinLines]
  rw [hshape, ((hline.append (skips_editorEntries domain label language)).append hdescription).append
    hindent]
  exact listDefault?_bracket _

/-! ## The name of the control -/

/-- The line that names the style sheet's control. -/
def sheetMark : Text := "'custom_css',"

/-- Most lines have no `u`. -/
theorem lacks_of_not_mem_u (h : 'u' ∉ t) : Lacks sheetMark t := lacks_of_not_mem (by decide) h

/-- An apostrophe in a literal has a backslash before it. -/
theorem lacks_escapeSingle (hc : c ≠ '\\') (t : Text) : Lacks [c, '\''] (escapeSingle t) := by
  induction t with
  | nil => exact fun h => by simpa [escapeSingle] using h.length_le
  | cons d t ih =>
    have hpiece : Lacks [c, '\''] (escapeSingleChar d) := by
      rintro ⟨a, b, hab⟩
      have hlength := congrArg List.length hab
      rcases escapes_single d with h | ⟨e, -, h⟩ | ⟨e, -, -, h⟩
      · simp [h] at hab
      · rw [h] at hab hlength
        cases a with
        | nil => exact hc (List.cons.inj hab).1
        | cons a as => simp at hlength; omega
      · rw [h] at hlength
        simp at hlength
        omega
    have hhead (e : Char) (he : e ∈ (escapeSingle t).head?) : e ∉ ['\''] := by
      obtain ⟨s, hs⟩ := List.head?_eq_some_iff.1 he
      intro hquote
      obtain rfl := List.mem_singleton.1 hquote
      have hbody := quotedBody?_escapeSingle t []
      rw [hs] at hbody
      simp [quotedBody?] at hbody
    exact hpiece.append ih (apart_of_head hhead)

/-- So no literal in single quotes makes the name, even if it is that of the control, unless a comma
follows. -/
theorem lacks_singleQuoted (t : Text) : Lacks sheetMark (singleQuoted t) := by
  have hend : (['s', '\'', ','] : Text) <:+: sheetMark := by decide
  intro hmark
  obtain ⟨a, b, hab⟩ := hend.trans hmark
  cases a with
  | nil => exact absurd (List.cons.inj hab).1 (by decide)
  | cons a as =>
    have htail : as ++ ['s', '\'', ','] ++ b = escapeSingle t ++ ['\''] := (List.cons.inj hab).2
    rcases List.eq_nil_or_concat b with rfl | ⟨b, d, rfl⟩
    · have hlast := congrArg List.getLast? htail
      simp at hlast
    · rw [List.concat_eq_append, ← List.append_assoc] at htail
      have hin := (List.append_inj_left' htail rfl)
      exact lacks_escapeSingle (c := 's') (by decide) t ⟨as, ',' :: b, by rw [← hin]; simp⟩

/-- Escaping makes no underscore. -/
theorem underscore_not_mem_literal (ht : '_' ∉ t) : '_' ∉ Php.literal t := by
  have hsingle : '_' ∉ escapeSingle t := fun h => (mem_escapeSingle h).elim ht (by decide)
  have hdouble : '_' ∉ escapeDouble t := by
    intro h
    obtain ⟨c, hc, hmem⟩ := List.mem_flatMap.1 h
    unfold escapeDoubleChar at hmem
    split_ifs at hmem
    all_goals try exact absurd hmem (by decide)
    exact ht (List.mem_singleton.1 hmem ▸ hc)
  rw [Php.literal]
  split
  · simp [doubleQuoted, hdouble]
  · simp [singleQuoted, hsingle]

/-- A line with a text in the language of the reader: the call has no `u`, what is shown no underscore,
and behind the text domain there is no comma. -/
theorem lacks_localized {front : Text} (domain : Text) (hfront : 'u' ∉ front) (ht : '_' ∉ t) :
    Lacks sheetMark (callLine 2 (front ++ localized domain t ++ ",")) := by
  have hcall : Lacks sheetMark (callLine 2 front ++ ("esc_html__(" : Text)) := by
    have hindent : 'u' ∉ callLine 2 [] := by decide
    have hopen : 'u' ∉ ("esc_html__(" : Text) := by decide
    have hline : callLine 2 front = callLine 2 [] ++ front := by simp [callLine]
    refine lacks_of_not_mem_u ?_
    rw [hline, List.mem_append, List.mem_append]
    exact not_or.2 ⟨not_or.2 ⟨hindent, hfront⟩, hopen⟩
  have hshown : Lacks sheetMark (Php.literal t ++ (", " : Text)) := by
    have hcomma : '_' ∉ (", " : Text) := by decide
    refine lacks_of_not_mem (c := '_') (by decide) ?_
    exact mt List.mem_append.1 (not_or.2 ⟨underscore_not_mem_literal ht, hcomma⟩)
  have hdomain : Lacks sheetMark (singleQuoted domain ++ ((")" : Text) ++ ",")) :=
    (lacks_singleQuoted domain).append (by decide) (apart_of_head (by decide))
  have hshape : callLine 2 (front ++ localized domain t ++ ",") = callLine 2 front ++ ("esc_html__(" : Text)
      ++ (Php.literal t ++ (", " : Text) ++ (singleQuoted domain ++ ((")" : Text) ++ ","))) := by
    unfold callLine localized
    repeat rw [List.append_assoc]
  have hparen : ∀ c ∈ (callLine 2 front ++ ("esc_html__(" : Text)).getLast?, c ∉ sheetMark.dropLast := by
    rw [List.getLast?_append]
    exact (by decide : ∀ c ∈ some '(', c ∉ sheetMark.dropLast)
  have hblank : ∀ c ∈ (Php.literal t ++ (", " : Text)).getLast?, c ∉ sheetMark.dropLast := by
    rw [List.getLast?_append]
    exact (by decide : ∀ c ∈ some ' ', c ∉ sheetMark.dropLast)
  rw [hshape]
  exact hcall.append (hshown.append hdomain (apart_of_last hblank)) (apart_of_last hparen)

/-- A text without backslashes stands at the beginning of what is written only if it stood there. -/
theorem prefix_of_prefix_escapeDouble {mark : Text} (hmark : '\\' ∉ mark)
    (h : mark <+: escapeDouble t) : mark <+: t.filter (· != '\r') := by
  induction t generalizing mark with
  | nil => exact h
  | cons c t ih =>
    cases mark with
    | nil => exact List.nil_prefix
    | cons m mark =>
      obtain ⟨hm, hmark'⟩ : '\\' ≠ m ∧ '\\' ∉ mark := by simpa using hmark
      rw [escapeDouble, List.flatMap_cons] at h
      rcases escapeDoubleChar_cases c with ⟨rfl, hc⟩ | ⟨d, -, hc⟩ | ⟨-, hreturn, hc⟩
      · rw [hc, List.nil_append] at h
        exact ih hmark h
      · rw [hc] at h
        exact absurd (List.cons_prefix_cons.1 h).1.symm hm
      · rw [hc] at h
        obtain ⟨rfl, hrest⟩ := List.cons_prefix_cons.1 h
        rw [List.filter_cons_of_pos (by simpa using hreturn)]
        exact List.cons_prefix_cons.2 ⟨rfl, ih hmark' hrest⟩

/-- A text that begins with an apostrophe and has no backslashes stands in what is written only if it
stood in the text without the carriage returns. -/
theorem lacks_escapeDouble (mark : Text) (hmark : '\\' ∉ mark)
    (h : Lacks ('\'' :: mark) (t.filter (· != '\r'))) : Lacks ('\'' :: mark) (escapeDouble t) := by
  induction t with
  | nil => exact h
  | cons c t ih =>
    have hrest : Lacks ('\'' :: mark) (escapeDouble t) :=
      ih (h.of_infix ((List.suffix_cons c t).filter _).isInfix)
    intro hin
    have hfirst : ¬ ('\'' :: mark) <+: escapeDouble (c :: t) := fun hp =>
      h (prefix_of_prefix_escapeDouble (by simpa using hmark) hp).isInfix
    rw [escapeDouble, List.flatMap_cons] at hin hfirst
    rcases escapeDoubleChar_cases c with ⟨-, hc⟩ | ⟨d, ⟨hd, -⟩, hc⟩ | ⟨-, -, hc⟩
    · rw [hc] at hin
      exact hrest hin
    · rw [hc] at hin
      rcases List.infix_cons_iff.1 hin with hp | hin
      · exact absurd (List.cons_prefix_cons.1 hp).1 (by decide)
      · rcases List.infix_cons_iff.1 hin with hp | hin
        · exact hd (List.cons_prefix_cons.1 hp).1.symm
        · exact hrest hin
    · rw [hc] at hin hfirst
      rcases List.infix_cons_iff.1 hin with hp | hin
      · exact hfirst hp
      · exact hrest hin

/-! ## The section of custom code -/

/-- The lines before the name of the style sheet's control. -/
def sheetOpening (domain : Text) : List Text :=
  [callLine 0 "$this->start_controls_section(", callLine 1 "'section_custom_code',", callLine 1 "[",
    callLine 2 ("'label' => " ++ localized domain "Custom Code" ++ ","),
    callLine 2 "'tab' => \\Elementor\\Controls_Manager::TAB_ADVANCED,", callLine 1 "]",
    callLine 0 ");", [], callLine 0 "$this->add_control("]

/-- What is said of the style sheet's control. -/
def sheetDescription : Text := "Use \"selector\" or \x7b\x7bWRAPPER\x7d\x7d to target this widget instance."

/-- The control for the script. -/
def scriptControl (js : Text) : Control :=
  codeControl "custom_js" "Custom JavaScript" "javascript" js
    "Runs once the widget markup is ready. jQuery is available as $."

/-- The lines behind the list of the style sheet's control. -/
def scriptLines (domain js : Text) : List Text :=
  callLine 0 ");" :: [] :: (scriptControl js).phpLines domain
    ++ [[], callLine 0 "$this->end_controls_section();"]

/-- The lines behind the name of the style sheet's control. -/
def sheetLines (domain css js : Text) : List Text :=
  callLine 1 "[" :: (editorEntries domain "Custom CSS" "css" ++ editorDefault css
    ++ callLine 2 ("'description' => " ++ localized domain sheetDescription ++ ",") :: callLine 1 "]"
    :: scriptLines domain js)

theorem printSections_customCode (domain css js : Text) :
    printSections domain [customCodeSection css js]
      = joinLines (sheetOpening domain) ++ callLine 1 []
        ++ (sheetMark ++ '\n' :: joinLines (sheetLines domain css js)) := by
  have hsection : (customCodeSection css js).phpLines domain = (sheetOpening domain).take 7
      ++ ([] :: (codeControl "custom_css" "Custom CSS" "css" css sheetDescription).phpLines domain
        ++ ([] :: (scriptControl js).phpLines domain ++ []))
      ++ [[], callLine 0 "$this->end_controls_section();"] := rfl
  have hmark : singleQuoted "custom_css" ++ "," = sheetMark := rfl
  have hlines : (customCodeSection css js).phpLines domain
      = sheetOpening domain ++ callLine 1 sheetMark :: sheetLines domain css js := by
    rw [hsection, phpLines_codeControl, hmark]
    simp [sheetOpening, sheetLines, scriptLines]
  rw [printSections, Section.allPhpLines, hlines]
  simp [joinLines, callLine]

/-- The name of the control stands nowhere before its place. -/
theorem lacks_sheetOpening (domain : Text) :
    Lacks sheetMark (joinLines (sheetOpening domain) ++ callLine 1 [] ++ sheetMark.dropLast) := by
  have hlines : ∀ l ∈ sheetOpening domain ++ [callLine 1 sheetMark.dropLast], Lacks sheetMark l := by
    -- the name of the section goes on with `c` behind no apostrophe
    have hname : Lacks sheetMark (callLine 1 "'section_custom_code',") := fun h =>
      absurd (List.IsInfix.trans (by decide : (['\'', 'c'] : Text) <:+: sheetMark) h) (by decide)
    have hcomma : Lacks sheetMark (callLine 1 sheetMark.dropLast) :=
      lacks_of_not_mem (c := ',') (by decide) (by decide)
    unfold sheetOpening
    simp only [List.forall_mem_append, List.forall_mem_cons, List.not_mem_nil, false_imp_iff,
      implies_true, and_true]
    exact ⟨⟨lacks_of_not_mem_u (by decide), hname, lacks_of_not_mem_u (by decide),
      lacks_localized domain (by decide) (by decide), lacks_of_not_mem_u (by decide),
      lacks_of_not_mem_u (by decide), lacks_of_not_mem_u (by decide), lacks_of_not_mem_u (by decide),
      lacks_of_not_mem_u (by decide)⟩, hcomma⟩
  have hjoined := lacks_joinLines (by decide) (by decide) hlines
  refine hjoined.of_infix ⟨[], ['\n'], ?_⟩
  simp [joinLines, callLine]

/-- The script's control does not make the name, unless the script does. -/
theorem lacks_scriptLines (domain : Text) {js : Text} (h : Lacks "'custom_css'" (js.filter (· != '\r'))) :
    ∀ l ∈ scriptLines domain js, Lacks sheetMark l := by
  have hdefault : ∀ l ∈ editorDefault js, Lacks sheetMark l := by
    have hscript : Lacks sheetMark (escapeDouble js) := fun hmark =>
      lacks_escapeDouble "custom_css'" (by decide) h (.trans (by decide) hmark)
    have hline := ((by decide : Lacks sheetMark (callLine 2 "'default' => \"")).append hscript
      (apart_of_last (by decide))).append (by decide : Lacks sheetMark "\",") (apart_of_head (by decide))
    unfold editorDefault
    split
    · exact fun l hl => absurd hl List.not_mem_nil
    · refine List.forall_mem_singleton.2 ?_
      simpa [callLine, doubleQuoted] using hline
  unfold scriptLines scriptControl
  rw [phpLines_codeControl]
  unfold editorEntries
  simp only [List.forall_mem_append, List.forall_mem_cons, List.not_mem_nil, false_imp_iff,
    implies_true, and_true]
  have hlanguage : Lacks sheetMark (callLine 2 ("'language' => " ++ singleQuoted "javascript" ++ ",")) :=
    lacks_of_not_mem (c := '_') (by decide) (by decide)
  have hname : Lacks sheetMark (callLine 1 (singleQuoted "custom_js" ++ ",")) :=
    fun h => absurd (List.IsInfix.trans (by decide : (['c', 's', 's'] : Text) <:+: sheetMark) h) (by decide)
  exact ⟨⟨lacks_of_not_mem_u (by decide), lacks_of_not_mem_u (by decide),
    ⟨⟨⟨lacks_of_not_mem_u (by decide), hname, lacks_of_not_mem_u (by decide)⟩,
        lacks_localized domain (by decide) (by decide), lacks_of_not_mem_u (by decide), hlanguage,
        lacks_of_not_mem_u (by decide)⟩, hdefault⟩,
      lacks_localized domain (by decide) (by decide), lacks_of_not_mem_u (by decide),
      lacks_of_not_mem_u (by decide)⟩, lacks_of_not_mem_u (by decide), lacks_of_not_mem_u (by decide)⟩

/-- Behind its place the name does not stand either. -/
theorem lacks_sheetLines {domain js : Text} (h : Lacks "'custom_css'" (js.filter (· != '\r'))) :
    Lacks sheetMark (sheetMark.tail ++ '\n' :: joinLines (sheetLines domain [] js)) := by
  have hlines : ∀ l ∈ sheetMark.tail :: sheetLines domain [] js, Lacks sheetMark l := by
    have hscript := lacks_scriptLines domain h
    unfold sheetLines editorEntries editorDefault
    simp only [List.forall_mem_append, List.forall_mem_cons, List.not_mem_nil, false_imp_iff,
      implies_true, and_true, List.isEmpty_nil, if_true]
    have hlanguage : Lacks sheetMark (callLine 2 ("'language' => " ++ singleQuoted "css" ++ ",")) :=
      lacks_of_not_mem (c := '_') (by decide) (by decide)
    exact ⟨by decide, lacks_of_not_mem_u (by decide), ⟨lacks_localized domain (by decide) (by decide),
      lacks_of_not_mem_u (by decide), hlanguage, lacks_of_not_mem_u (by decide)⟩,
      lacks_localized domain (by decide) (by decide), lacks_of_not_mem_u (by decide), hscript⟩
  exact lacks_joinLines (by decide) (by decide) hlines

/-! ## The search -/

theorem customCssDefault_eq_none {prev : Option Char} (h : ¬ sheetMark <+: s) :
    customCssDefault prev s = none := by
  have hafter : after? "'custom_css'," s = none :=
    Option.eq_none_iff_forall_ne_some.2 fun r hr => h ⟨r, (after?_eq_some.1 hr).symm⟩
  rw [customCssDefault, hafter]
  rfl

/-- At its name the control's list is read. -/
theorem customCssDefault_sheetLines (prev : Option Char) (domain css js : Text) :
    customCssDefault prev (sheetMark ++ '\n' :: joinLines (sheetLines domain css js))
      = (listDefault? ('\n' :: joinLines (sheetLines domain css js).tail)).map
        fun (quote, body, rest) => ((quote, body), rest) := by
  have hafter : after? "'custom_css'," (sheetMark ++ '\n' :: joinLines (sheetLines domain css js))
      = some ('\n' :: joinLines (sheetLines domain css js)) := after?_append _ _
  have hblanks : afterBlanks ('\n' :: joinLines (sheetLines domain css js))
      = '[' :: '\n' :: joinLines (sheetLines domain css js).tail := rfl
  rw [customCssDefault, hafter]
  simp only [Option.map_some, hblanks, listDefault?]

/-- Before its name nothing is read. -/
theorem passesBefore_sheetOpening (domain rest : Text) : Pattern.PassesBefore customCssDefault
    (joinLines (sheetOpening domain) ++ callLine 1 []) (sheetMark ++ rest) := by
  intro a b hab hb
  refine customCssDefault_eq_none fun hmark => ?_
  -- a name that begins in `b` ends before the last character of the name behind it
  have hshort : sheetMark <+: b ++ sheetMark.dropLast := by
    have hname : sheetMark = sheetMark.dropLast ++ [','] := rfl
    have hin : b ++ sheetMark.dropLast <+: b ++ (sheetMark ++ rest) := by
      refine ⟨',' :: rest, ?_⟩
      rw [List.append_assoc, hname]
      simp
    have hlength := List.length_pos_iff.2 hb
    refine List.prefix_of_prefix_length_le hmark hin ?_
    rw [List.length_append, List.length_dropLast]
    omega
  refine lacks_sheetOpening domain (hshort.isInfix.trans ⟨a, [], ?_⟩)
  rw [hab]
  simp

/-- So the search comes to the name. -/
theorem exists_findValue?_customCode (domain css js : Text) : ∃ prev,
    Pattern.findValue? customCssDefault (printSections domain [customCodeSection css js])
      = Pattern.findValueFrom? customCssDefault prev
        (sheetMark ++ '\n' :: joinLines (sheetLines domain css js)) := by
  have hforward : Pattern.Forward customCssDefault := fun _ _ _ => rfl
  obtain ⟨prev, hfind⟩ := hforward.find?_append none
    (passesBefore_sheetOpening domain ('\n' :: joinLines (sheetLines domain css js)))
  refine ⟨prev, ?_⟩
  rw [printSections_customCode, Pattern.findValue?, Pattern.findValueFrom?_eq, hfind,
    Pattern.findValueFrom?_eq, Option.map_map]
  rfl

/-- On the code that registers the section of custom code, the default of the style sheet's control is
found, and it stands for the style sheet without its carriage returns, whatever stands in the style
sheet, in the script and in the text domain.  Without a style sheet nothing is found, provided that the
script, without its carriage returns, does not hold the name of the control. -/
theorem findValue?_customCode (domain css js : Text) :
    (css ≠ [] → ∃ quote body, Pattern.findValue? customCssDefault
        (printSections domain [customCodeSection css js]) = some (quote, body)
      ∧ unescape quote body = css.filter (· != '\r'))
    ∧ (css = [] → Lacks "'custom_css'" (js.filter (· != '\r')) →
      Pattern.findValue? customCssDefault (printSections domain [customCodeSection css js]) = none) := by
  obtain ⟨prev, hfind⟩ := exists_findValue?_customCode domain css js
  have hname (s : Text) : sheetMark ++ s = '\'' :: (sheetMark.tail ++ s) := rfl
  have hread := customCssDefault_sheetLines prev domain css js
  rw [hname] at hfind hread
  rw [Pattern.findValueFrom?, hread] at hfind
  constructor
  · intro hcss
    obtain ⟨rest, hlist⟩ := listDefault?_editor domain "Custom CSS" "css" hcss
      (callLine 2 ("'description' => " ++ localized domain sheetDescription ++ ",") :: callLine 1 "]"
        :: scriptLines domain js)
    have htail : (sheetLines domain css js).tail = editorEntries domain "Custom CSS" "css"
        ++ editorDefault css ++ callLine 2 ("'description' => " ++ localized domain sheetDescription ++ ",")
        :: callLine 1 "]" :: scriptLines domain js := rfl
    rw [htail, hlist] at hfind
    exact ⟨'"', escapeDouble css, hfind, unescape_escapeDouble css⟩
  · rintro rfl hjs
    have hlist := listDefault?_editor_nil domain "Custom CSS" "css" sheetDescription
      (scriptLines domain js)
    have htail : (sheetLines domain [] js).tail = editorEntries domain "Custom CSS" "css"
        ++ editorDefault [] ++ callLine 2 ("'description' => " ++ localized domain sheetDescription ++ ",")
        :: callLine 1 "]" :: scriptLines domain js := rfl
    rw [htail, hlist] at hfind
    have habsent : Pattern.Absent customCssDefault
        (sheetMark.tail ++ '\n' :: joinLines (sheetLines domain [] js)) := fun a b hab _ prev =>
      customCssDefault_eq_none fun hmark =>
        lacks_sheetLines hjs (hmark.isInfix.trans ⟨a, [], by rw [hab, List.append_nil]⟩)
    rw [hfind]
    simp only [Option.map_none, Pattern.findValueFrom?_eq, habsent.find?_eq_none]

/-- A script may speak of the control beside a style sheet, and a text domain always may. -/
theorem findValue?_customCode_brackets :
    (∃ quote body, Pattern.findValue? customCssDefault (printSections "custom_css"
        [customCodeSection "a::after \x7b content: \"]'default' => '\" \x7d" "'custom_css', []"])
        = some (quote, body)
      ∧ unescape quote body
        = ("a::after \x7b content: \"]'default' => '\" \x7d" : Text).filter (· != '\r'))
    ∧ Pattern.findValue? customCssDefault
      (printSections "custom_css" [customCodeSection [] "['default' => 'a']"]) = none :=
  ⟨(findValue?_customCode _ _ _).1 (by decide), (findValue?_customCode _ _ _).2 rfl (by decide)⟩

/-- A script that holds the name of the control only without its carriage returns is taken for it. -/
theorem findValue?_splitName :
    Lacks "'custom_css'" "'custom_\rcss', ['default' => 'body \x7b\x7d']"
    ∧ Pattern.findValue? customCssDefault (printSections "cards"
        [customCodeSection [] "'custom_\rcss', ['default' => 'body \x7b\x7d']"])
      = some ('\'', ("body \x7b\x7d" : Text)) := by
  decide +kernel

end WidgetCompiler.Validation
