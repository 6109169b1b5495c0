import WidgetCompiler.Markup.Token
import WidgetCompiler.Proofs.Markup.Written

/-!
# Written tags, read as tokens

`scanStartTags` and the construction of a document read markup independently of each other.
`Proofs/Markup/Written.lean` says what the first finds where `startTagText` and `endTagText` were
written; here is what the second reads there (`read_startTagText`, `read_endTagText`), and where
text was written between tags (`read_text`).

The reader of tokens takes more characters for something else than the scan does, so values and
texts are asked to be `Literal`: without those that begin a tag or a reference, end a value, or are
exchanged on the way.
-/

namespace WidgetCompiler.Markup

open Text

/-! ## Characters that stand for themselves -/

/-- The characters that are not read as themselves: those that begin a tag or a reference, the
quote around values, and those that are exchanged for others. -/
def exchanged : Text := ['<', '&', '"', '\r', '\x00']

/-- Whether a text is read as it is, in content and in quotes. -/
def Literal (t : Text) : Prop := ∀ c ∈ t, c ∉ exchanged

instance (t : Text) : Decidable (Literal t) := decidableForallChar t

section

variable {t : Text} {c : Char}

theorem Literal.not_mem (h : Literal t) (hc : c ∈ exchanged) : c ∉ t := fun hm => h c hm hc

theorem literal_of_isSmallName (h : isSmallName t = true) : Literal t := by
  intro c hc hm
  have hpart := all_of_isSmallName h c hc
  simp only [exchanged, List.mem_cons, List.not_mem_nil, or_false] at hm
  rcases hm with rfl | rfl | rfl | rfl | rfl <;> exact absurd hpart (by decide)

theorem replaceNulls_eq_self (h : '\x00' ∉ t) : replaceNulls t = t := by
  refine (List.map_congr_left fun c hc => ?_).trans (List.map_id t)
  exact if_neg fun e : c = '\x00' => h (e ▸ hc)

/-- Line ends are left as they are where there is no carriage return. -/
theorem normalizeLineEnds_eq_self (h : '\r' ∉ t) : normalizeLineEnds t = t := by
  induction t with
  | nil => rfl
  | cons c t ih =>
    obtain ⟨hc, ht⟩ := not_or.1 (fun hor => h (List.mem_cons.2 hor))
    rw [normalizeLineEnds, ih ht]
    · rintro s rfl _
      exact hc rfl
    · exact fun e => hc e.symm

end

/-! ## Attributes -/

section

variable {as : List (Text × Text)} {name value acc s : Text}

theorem readAttributes_afterQuoted (s : Text) :
    readAttributes as .afterQuoted s = readAttributes as .beforeName s := by
  cases s <;> rfl

/-- A name is read up to its equals sign. -/
theorem readAttributes_inName (h : ∀ c ∈ name, isSmallNamePart c = true) :
    readAttributes as (.inName acc) (name ++ '=' :: s)
      = readAttributes as (.beforeValue (name.reverse ++ acc)) s := by
  induction name generalizing acc with
  | nil => rfl
  | cons c name ih =>
    have hc : isSmallNamePart c = true := h c (List.mem_cons_self ..)
    have hpart := isAttributeNamePart_of_isSmallNamePart hc
    simp only [isAttributeNamePart, Bool.not_eq_true', Bool.or_eq_false_iff, beq_eq_false_iff_ne]
      at hpart
    obtain ⟨⟨⟨hblank, hequals⟩, hbracket⟩, hslash⟩ := hpart
    have hstep : tagStep as (.inName acc) c = .go as (.inName (c :: acc)) := by
      simp only [tagStep, hblank, hequals, hbracket, hslash, Bool.false_eq_true, if_false]
    rw [List.cons_append, readAttributes, hstep]
    simp only
    rw [ih fun d hd => h d (List.mem_cons_of_mem c hd)]
    simp

/-- A value is read up to the quote that ends it. -/
theorem readAttributes_inQuoted (h : '"' ∉ value) :
    readAttributes as (.inQuoted '"' name acc) (value ++ '"' :: s)
      = readAttributes (addAttribute as name (value.reverse ++ acc)) .beforeName s := by
  induction value generalizing acc with
  | nil =>
    rw [← readAttributes_afterQuoted]
    rfl
  | cons c value ih =>
    obtain ⟨hc, hvalue⟩ := not_or.1 (fun hor => h (List.mem_cons.2 hor))
    have hstep : tagStep as (.inQuoted '"' name acc) c = .go as (.inQuoted '"' name (c :: acc)) :=
      if_neg (Ne.symm hc)
    rw [List.cons_append, readAttributes, hstep]
    simp only
    rw [ih hvalue]
    simp

/-- A new attribute comes behind the others, with its value as it is written. -/
theorem addAttribute_reverse (hname : isSmallName name = true) (hvalue : Literal value)
    (hnew : name ∉ as.map (·.1)) :
    addAttribute as name.reverse value.reverse = as ++ [(name, value)] := by
  have hread : replaceNulls (lowerAscii name) = name := by
    rw [lowerAscii_of_isSmallName hname,
      replaceNulls_eq_self ((literal_of_isSmallName hname).not_mem (by decide))]
  have hany : as.any (·.1 == name) = false := by
    rw [List.any_eq_false]
    intro a ha he
    exact hnew (List.mem_map.2 ⟨a, ha, by simpa using he⟩)
  have hplain : decodeReferences true (replaceNulls value) = value := by
    rw [replaceNulls_eq_self (hvalue.not_mem (by decide)),
      decodeReferences_of_no_ampersand (hvalue.not_mem (by decide))]
  simp only [addAttribute, List.reverse_reverse, hread, hany, hplain, Bool.false_eq_true, if_false]

/-- One written attribute is read. -/
theorem readAttributes_attributeText {a : Text × Text} (hname : isSmallName a.1 = true)
    (hvalue : Literal a.2) (hnew : a.1 ∉ as.map (·.1)) :
    readAttributes as .beforeName (' ' :: (attributeText a ++ s))
      = readAttributes (as ++ [a]) .beforeName s := by
  obtain ⟨name, value⟩ := a
  cases name with
  | nil => simp [isSmallName] at hname
  | cons c name =>
    have hparts := all_of_isSmallName hname
    have hc : isSmallNamePart c = true := hparts c (List.mem_cons_self ..)
    have hpart := isAttributeNamePart_of_isSmallNamePart hc
    simp only [isAttributeNamePart, Bool.not_eq_true', Bool.or_eq_false_iff, beq_eq_false_iff_ne]
      at hpart
    obtain ⟨⟨⟨hblank, -⟩, hbracket⟩, hslash⟩ := hpart
    have hfirst : tagStep as .beforeName c = .go as (.inName [c]) := by
      simp only [tagStep, stepBeforeName, hblank, hbracket, hslash, Bool.false_eq_true, if_false]
    have hsplit : ' ' :: (attributeText (c :: name, value) ++ s)
        = ' ' :: c :: (name ++ '=' :: '"' :: (value ++ '"' :: s)) := by
      simp [attributeText]
    have hquote (n : Text) : readAttributes as (.beforeValue n) ('"' :: (value ++ '"' :: s))
        = readAttributes as (.inQuoted '"' n []) (value ++ '"' :: s) := rfl
    have hspace : readAttributes as .beforeName
          (' ' :: c :: (name ++ '=' :: '"' :: (value ++ '"' :: s)))
        = readAttributes as .beforeName (c :: (name ++ '=' :: '"' :: (value ++ '"' :: s))) := rfl
    rw [hsplit, hspace, readAttributes, hfirst]
    simp only
    rw [readAttributes_inName fun d hd => hparts d (List.mem_cons_of_mem c hd), hquote,
      readAttributes_inQuoted (hvalue.not_mem (by decide)), List.append_nil,
      ← List.reverse_cons, addAttribute_reverse hname hvalue hnew]

/-- Attributes are read as they were written when every name stands there once. -/
theorem readAttributes_attributesText {bs : List (Text × Text)}
    (hbs : ∀ a ∈ bs, isSmallName a.1 = true ∧ Literal a.2)
    (honce : ((as ++ bs).map (·.1)).Nodup) (rest : Text) :
    readAttributes as .beforeName (attributesText bs ++ '>' :: rest)
      = some (as ++ bs, false, rest) := by
  induction bs generalizing as with
  | nil =>
    rw [List.append_nil]
    rfl
  | cons a bs ih =>
    have hnew : a.1 ∉ as.map (·.1) := by
      intro hm
      rw [List.map_append, List.map_cons] at honce
      exact (List.nodup_append.1 honce).2.2 a.1 hm a.1 (List.mem_cons_self ..) rfl
    have hsplit : attributesText (a :: bs) ++ '>' :: rest
        = ' ' :: (attributeText a ++ (attributesText bs ++ '>' :: rest)) := by
      simp [attributesText]
    obtain ⟨hname, hvalue⟩ := hbs a (List.mem_cons_self ..)
    rw [hsplit, readAttributes_attributeText hname hvalue hnew,
      ih (fun b hb => hbs b (List.mem_cons_of_mem a hb)) (by simpa using honce)]
    simp

end

/-! ## Tags and text -/

section

variable {name : Text} {as : List (Text × Text)}

/-- A tag is read from its name on. -/
theorem readTag_name (hname : isSmallName name = true)
    (has : ∀ a ∈ as, isSmallName a.1 = true ∧ Literal a.2) (honce : (as.map (·.1)).Nodup)
    (rest : Text) :
    readTag (name ++ (attributesText as ++ '>' :: rest)) = some (⟨name, as, false⟩, rest) := by
  have hparts : ∀ c ∈ name, (!endsTagName c) = true := by
    intro c hc
    have hpart := isAttributeNamePart_of_isSmallNamePart (all_of_isSmallName hname c hc)
    simp only [isAttributeNamePart, Bool.not_eq_true', Bool.or_eq_false_iff] at hpart
    simp [endsTagName, hpart.1.1.1, hpart.1.2, hpart.2]
  have hstop : ∀ c ∈ (attributesText as ++ '>' :: rest).head?, (!endsTagName c) = false := by
    cases as with
    | nil => simp [attributesText, endsTagName]
    | cons a as => simp [attributesText, endsTagName, isAsciiBlank]
  have hread : replaceNulls (lowerAscii name) = name := by
    rw [lowerAscii_of_isSmallName hname,
      replaceNulls_eq_self ((literal_of_isSmallName hname).not_mem (by decide))]
  have honce' : ((([] : List (Text × Text)) ++ as).map (·.1)).Nodup := honce
  have hattributes := readAttributes_attributesText has honce' rest
  rw [readTag]
  simp only [takeWhile_run hparts hstop, dropWhile_run hparts hstop, hattributes, hread,
    Option.map_some, List.nil_append]

theorem exists_of_isSmallName (h : isSmallName name = true) :
    ∃ c s, name = c :: s ∧ c.isAlpha = true ∧ isSmallNamePart c = true := by
  cases name with
  | nil => simp [isSmallName] at h
  | cons c s =>
    have hlower : c.isLower = true := by
      rw [isSmallName, Bool.and_eq_true] at h
      exact h.1
    exact ⟨c, s, rfl, Bool.or_eq_true_iff.2 (.inr hlower), by simp [isSmallNamePart, hlower]⟩

/-- A start tag that was written is read. -/
theorem read_startTagText (hname : isSmallName name = true)
    (has : ∀ a ∈ as, isSmallName a.1 = true ∧ Literal a.2) (honce : (as.map (·.1)).Nodup)
    (foreign : Bool) (rest : Text) :
    Token.read foreign (startTagText name as false ++ rest)
      = (some (.startTag ⟨name, as, false⟩), rest) := by
  have htag := readTag_name hname has honce rest
  obtain ⟨c, s, rfl, halpha, hpart⟩ := exists_of_isSmallName hname
  have hne {d : Char} (hd : isSmallNamePart d = false) : c ≠ d := fun e => by simp [e ▸ hpart] at hd
  have hsplit : startTagText (c :: s) as false ++ rest
      = '<' :: c :: (s ++ (attributesText as ++ '>' :: rest)) := by
    simp [startTagText, tailText]
  rw [List.cons_append] at htag
  rw [hsplit, Token.read, readMarkup, if_pos halpha, htag]
  · exact hne (by decide)
  · exact hne (by decide)
  · exact fun h => absurd h (hne (by decide))
  · exact fun d t h => absurd h (hne (by decide))

/-- An end tag that was written is read. -/
theorem read_endTagText (hname : isSmallName name = true) (foreign : Bool) (rest : Text) :
    Token.read foreign (endTagText name ++ rest) = (some (.endTag ⟨name, [], false⟩), rest) := by
  have htag : readTag (name ++ (attributesText [] ++ '>' :: rest)) = some (⟨name, [], false⟩, rest) :=
    readTag_name hname (List.forall_mem_nil _) List.nodup_nil rest
  obtain ⟨c, s, rfl, halpha, hpart⟩ := exists_of_isSmallName hname
  have hbracket : c ≠ '>' := fun e => absurd (e ▸ hpart) (by decide)
  have hsplit : endTagText (c :: s) ++ rest
      = '<' :: '/' :: c :: (s ++ (attributesText [] ++ '>' :: rest)) := by
    simp [endTagText, attributesText]
  rw [List.cons_append] at htag
  rw [hsplit, Token.read, readMarkup, if_neg hbracket, if_pos halpha, htag]

/-- Text is read up to the next tag. -/
theorem read_text {t rest : Text} (ht : Literal t) (hne : t ≠ [])
    (hrest : ∀ c ∈ rest.head?, c = '<') (foreign : Bool) :
    Token.read foreign (t ++ rest) = (some (.chars t), rest) := by
  have hangle : '<' ∉ t := ht.not_mem (by decide)
  have hrun : ∀ c ∈ t, (c != '<') = true := fun c hc => by
    simpa using fun e : c = '<' => hangle (e ▸ hc)
  have hstop : ∀ c ∈ rest.head?, (c != '<') = false := fun c hc => by simp [hrest c hc]
  have hplain : decodeReferences false t = t :=
    decodeReferences_of_no_ampersand (ht.not_mem (by decide))
  obtain ⟨c, s, rfl⟩ := List.exists_cons_of_ne_nil hne
  have hfirst : ∀ r : Text, c :: s ++ rest ≠ '<' :: r := by
    intro r h
    exact hangle (List.mem_cons.2 (.inl (List.cons.inj h).1.symm))
  rw [Token.read, takeWhile_run hrun hstop, dropWhile_run hrun hstop, hplain]
  exact hfirst

end

end WidgetCompiler.Markup
