import WidgetCompiler.Proofs.Markup.Sanitized

/-!
# A document taken apart

Well-formed markup is separated into its parts without loss: what is left is its characters and tags,
and the bodies of its blocks are kept in their order (`sanitize_textOf`).

A document is written as a sequence of pieces (`DocumentPiece`).  Each is well-formed markup of its
own, and so is the document (`wellFormed_chunks`).  A tag of the content is none of the page's own and
none of a block, since its name ends where its attributes begin (`eq_of_named`).  Hence each piece of
the document ends up in one place at most, whatever stands next to it (`sanitize_document`).
-/

namespace WidgetCompiler.Markup

open Text Sanitize

/-! ## Well-formed markup -/

/-- The tag is kept to the end: it is none of the page's own and no instruction. -/
def Stays (u : Text) : Prop :=
  named "head" u = false ∧ ofPage u = false ∧ afterAnyCase? "?" u = none

section

variable {xs : List Chunk}

/-- Where all tags are kept to the end, nothing more is taken out of characters and tags. -/
theorem extract_of_stays (h : Tags (fun u => Kept u ∧ Stays u) xs) :
    (Pattern.extract pageTag (textOf xs)).1 = textOf xs
      ∧ (Pattern.extract instruction (textOf xs)).1 = textOf xs
      ∧ replace "<?" "&lt;?" (textOf xs) = textOf xs := by
  have hpage : pageTag.Forward := fun _ _ _ => rfl
  have hmark : IsMark "?" := by decide
  have hinstruction : LacksAnyCase "<?" (textOf xs) := h.lacksAnyCase hmark fun u hu => hu.2.2.2
  refine ⟨?_, ?_, replace_of_lacks (by decide) _ (hinstruction.lacks (by decide))⟩
  · have hpasses : ∀ x ∈ xs, Pattern.Passes pageTag x.text := by
      intro x hx
      rcases h x hx with ⟨c, rfl, hc⟩ | ⟨u, rfl, hu, -, hhead, hpage, -⟩
      · exact opens_pageTag.passes_char hc
      · refine opens_pageTag.passes_tag hu.1 fun rest => ?_
        rw [pageTag_tag hu hhead, hpage, if_neg Bool.false_ne_true]
    have hextract : (Pattern.extract pageTag (xs.flatMap (·.text))).1
        = (xs.filter fun _ => !false).flatMap (·.text) :=
      hpage.fst_extract_flatMap (fun _ _ h => absurd h Bool.false_ne_true) fun x hx _ => hpasses x hx
    have hall : xs.filter (fun _ => !false) = xs := List.filter_eq_self.2 fun _ _ => rfl
    rwa [hall] at hextract
  · rw [extract_instruction h, List.filter_eq_self.2 fun x hx => ?_]
    rcases h x hx with ⟨c, rfl, -⟩ | ⟨u, rfl, -, -, -, -, hu⟩
    · rfl
    · have hhead : u.head? ≠ some '?' := by
        rintro hhead
        obtain ⟨r, rfl⟩ := List.head?_eq_some_iff.1 hhead
        simp [afterAnyCase?, sameLetter] at hu
      simpa [Chunk.isInstruction] using hhead

/-- Well-formed markup is separated into characters and tags, and the bodies of its blocks. -/
theorem sanitize_textOf (h : ∀ x ∈ xs, x.WellFormed) (htags : ∀ u, .tag u ∈ xs → Stays u) :
    sanitize (textOf xs)
      = { markup := trim (textOf (xs.filter (·.isBare)))
          styles := nonEmptyBodies ((xs.filterMap (·.blockOf? "style")).map (·.2))
          scripts := nonEmptyBodies
            (((xs.filterMap (·.blockOf? "script")).filter fun (attributes, _) =>
              !Pattern.occursIn sourceAttribute attributes).map (·.2)) } := by
  obtain ⟨s, hstyle, hscript⟩ := extract_blocks h
  have hstays : Tags (fun u => Kept u ∧ Stays u) (xs.filter (·.isBare)) := by
    intro x hx
    rcases tags_filter_isBare h x hx with ⟨c, rfl, hc⟩ | ⟨u, rfl, hu, hkept⟩
    · exact .inl ⟨c, rfl, hc⟩
    · exact .inr ⟨u, rfl, hu, hkept, htags u (List.mem_filter.1 hx).1⟩
  obtain ⟨hpage, hinstruction, hreplace⟩ := extract_of_stays hstays
  rw [sanitize]
  simp only [hstyle, hscript, hpage, hinstruction, hreplace]

end

/-! ## Names and attributes -/

/-- The names of the page's own tags and of the blocks. -/
def reservedNames : List Text := ["html", "head", "body", "style", "script"]

/-- A name for a tag of the content: small letters and digits, a letter first, and not reserved. -/
def IsContentName (name : Text) : Prop :=
  (∃ c ∈ name.head?, c.isLower = true) ∧ (∀ c ∈ name, c.isLower = true ∨ c.isDigit = true)
    ∧ name ∉ reservedNames

/-- The text can stand behind the name of a tag: there is no angle bracket in it, and it does not go on
with the name. -/
def IsAttributes (attributes : Text) : Prop :=
  Bracketless attributes ∧ ∀ c ∈ attributes.head?, isLetter c = false

/-- The text can stand behind the name of a block. -/
def IsBlockAttributes (attributes : Text) : Prop :=
  Bracketless attributes ∧ (∀ c ∈ attributes, isAscii c = true) ∧ ∀ c ∈ attributes.head?, c = ' '

instance (name : Text) : Decidable (IsContentName name) := inferInstanceAs (Decidable (_ ∧ _ ∧ _))

instance (attributes : Text) : Decidable (IsAttributes attributes) := inferInstanceAs (Decidable (_ ∧ _))

instance (attributes : Text) : Decidable (IsBlockAttributes attributes) :=
  inferInstanceAs (Decidable (_ ∧ _ ∧ _))

section

variable {mark name attributes u : Text} {c : Char}

/-- A letter in another form is a letter. -/
theorem isLetter_of_sameLetter {m : Char} (hm : m.isLower = true) (h : sameLetter m c = true) :
    isLetter c = true := by
  simp only [sameLetter, Bool.or_eq_true, Bool.and_eq_true, beq_iff_eq] at h
  rcases h with (hlower | ⟨-, rfl⟩) | ⟨-, rfl⟩
  · have halpha : c.isAlpha = true := isAlpha_of_isLower_toLower (hlower ▸ hm)
    rwa [isLetter_ascii (isAscii_of_isAlphanum (isAlphanum_of_isAlpha halpha))]
  · decide +kernel
  · decide +kernel

theorem named_cons (m c : Char) (mark u : Text) :
    named (m :: mark) (c :: u) = (sameLetter m c && named mark u) := by
  rw [named, afterAnyCase?]
  cases sameLetter m c <;> rfl

theorem Bracketless.append {v : Text} (hu : Bracketless u) (hv : Bracketless v) : Bracketless (u ++ v) :=
  ⟨List.not_mem_append hu.1 hv.1, List.not_mem_append hu.2 hv.2⟩

theorem IsContentName.bracketless (h : IsContentName name) : Bracketless name := by
  have hother (c : Char) (hlower : c.isLower = false) (hdigit : c.isDigit = false) : c ∉ name :=
    fun hc => by simpa [hlower, hdigit] using h.2.1 c hc
  exact ⟨hother '<' rfl rfl, hother '>' rfl rfl⟩

/-- The name of a tag is the one that stands in it, up to its attributes. -/
theorem eq_of_named (hmark : ∀ m ∈ mark, m.isLower = true)
    (hname : ∀ c ∈ name, c.isLower = true ∨ c.isDigit = true)
    (hattributes : ∀ c ∈ attributes.head?, isLetter c = false)
    (h : named mark (name ++ attributes) = true) : mark = name := by
  induction mark generalizing name with
  | nil =>
    cases name with
    | nil => rfl
    | cons c name =>
      -- a name does not end in front of one of its characters
      have halpha : c.isAlphanum = true :=
        isAlphanum_of_small (Bool.or_eq_true_iff.2 (hname c List.mem_cons_self))
      have hword : isWordPart c = true := by
        rw [isWordPart_ascii (isAscii_of_isAlphanum halpha), halpha, Bool.true_or]
      have hends : (!isWordPart c) = true := h
      rw [hword] at hends
      exact absurd hends (by decide)
  | cons m mark ih =>
    have hm := hmark m List.mem_cons_self
    cases name with
    | nil =>
      cases attributes with
      | nil => exact absurd h Bool.false_ne_true
      | cons c attributes =>
        rw [List.nil_append, named_cons, Bool.and_eq_true] at h
        exact absurd (isLetter_of_sameLetter hm h.1) (by simp [hattributes c rfl])
    | cons c name =>
      rw [List.cons_append, named_cons, Bool.and_eq_true] at h
      have hsmall : (c.isLower || c.isDigit) = true :=
        Bool.or_eq_true_iff.2 (hname c List.mem_cons_self)
      have hascii : isAscii c = true := isAscii_of_isAlphanum (isAlphanum_of_small hsmall)
      obtain rfl : c = m := (toLower_of_small hsmall).symm.trans (toLower_of_sameLetter hascii h.1)
      rw [ih (fun n hn => hmark n (List.mem_cons_of_mem c hn))
        (fun d hd => hname d (List.mem_cons_of_mem c hd)) h.2]

theorem named_content (hname : IsContentName name) (hattributes : IsAttributes attributes) :
    ∀ mark ∈ reservedNames, named mark (name ++ attributes) = false := by
  intro mark hmark
  have hsmall : ∀ mark ∈ reservedNames, ∀ m ∈ mark, m.isLower = true := by decide
  refine Bool.eq_false_iff.2 fun h => hname.2.2 ?_
  rwa [← eq_of_named (hsmall mark hmark) hname.2.1 hattributes.2 h]

theorem mem_reservedNames_of_mem_blockNames : ∀ mark ∈ blockNames, mark ∈ reservedNames := by decide

/-- A start tag of the content is kept to the end. -/
theorem kept_startTag (hname : IsContentName name) (hattributes : IsAttributes attributes) :
    Kept (name ++ attributes) ∧ Stays (name ++ attributes) := by
  have hnamed := named_content hname hattributes
  obtain ⟨c, hfirst, hc⟩ := hname.1
  obtain ⟨rest, hrest⟩ : ∃ rest, name ++ attributes = c :: rest := by
    obtain ⟨name, rfl⟩ := List.head?_eq_some_iff.1 hfirst
    exact ⟨name ++ attributes, rfl⟩
  -- marks that begin with no letter are not there, since the tag begins with one
  have hletter {m : Char} (hm : m.isLower = false) (mark : Text) :
      afterAnyCase? (m :: mark) (name ++ attributes) = none := by
    rw [hrest]
    exact afterAnyCase?_cons_of_ne hm (fun h => by simp [h, hm] at hc) mark rest
  have hslash (mark : Text) : named ('/' :: mark) (name ++ attributes) = false := by
    rw [named, hletter (by decide)]
  refine ⟨⟨hletter (m := '!') rfl "--", fun mark hmark =>
      hnamed mark (mem_reservedNames_of_mem_blockNames mark hmark)⟩,
    hnamed _ (by decide), ?_, hletter (m := '?') rfl []⟩
  have htype : afterAnyCase? "!doctype" (name ++ attributes) = none := hletter (m := '!') rfl "doctype"
  have hhtml : named "/html" (name ++ attributes) = false := hslash "html"
  have hbody : named "/body" (name ++ attributes) = false := hslash "body"
  rw [ofPage, htype, hhtml, hbody, hnamed "html" (by decide), hnamed "body" (by decide)]
  rfl

/-- An end tag of the content is kept to the end. -/
theorem kept_endTag (hname : IsContentName name) (hattributes : IsAttributes attributes) :
    Kept ('/' :: (name ++ attributes)) ∧ Stays ('/' :: (name ++ attributes)) := by
  have hnamed := named_content hname hattributes
  have hletter : ∀ mark ∈ reservedNames, named mark ('/' :: (name ++ attributes)) = false := by
    intro mark hmark
    simp only [reservedNames, List.mem_cons, List.not_mem_nil, or_false] at hmark
    rcases hmark with rfl | rfl | rfl | rfl | rfl <;> rfl
  have hslash (mark : Text) (hmark : mark ∈ reservedNames) :
      named ('/' :: mark) ('/' :: (name ++ attributes)) = false := by
    rw [named_cons, hnamed mark hmark, Bool.and_false]
  refine ⟨⟨rfl, fun mark hmark => hletter mark (mem_reservedNames_of_mem_blockNames mark hmark)⟩,
    hletter _ (by decide), ?_, rfl⟩
  have htype : afterAnyCase? "!doctype" ('/' :: (name ++ attributes)) = none := rfl
  have hhtml : named "/html" ('/' :: (name ++ attributes)) = false := hslash "html" (by decide)
  have hbody : named "/body" ('/' :: (name ++ attributes)) = false := hslash "body" (by decide)
  rw [ofPage, htype, hhtml, hbody, hletter "html" (by decide), hletter "body" (by decide)]
  rfl

/-! ## Sources of scripts -/

/-- The attributes name a source, in letters of any case. -/
def NamesSource (attributes : Text) : Prop := "src".toList <:+: lowerAscii attributes

instance (attributes : Text) : Decidable (NamesSource attributes) :=
  inferInstanceAs (Decidable (_ <:+: _))

theorem occursIn_sourceAttribute (hascii : ∀ c ∈ attributes, isAscii c = true)
    (h : NamesSource attributes → " src=".toList <:+: attributes) :
    Pattern.occursIn sourceAttribute attributes = true ↔ NamesSource attributes := by
  constructor
  · intro hoccurs
    by_contra hnone
    have habsent : Pattern.Absent sourceAttribute attributes := by
      rintro a b rfl hb prev
      have hlacks : Lacks "src" (lowerAscii b) := by
        refine Lacks.of_infix hnone (List.IsSuffix.isInfix ?_)
        exact ⟨lowerAscii a, by simp [lowerAscii]⟩
      have hafter := afterAnyCase?_eq_none (fun c hc => hascii c (List.mem_append_right a hc)) hlacks
      rw [sourceAttribute, hafter]
      exact ite_self none
    rw [Pattern.occursIn, habsent.find?_eq_none] at hoccurs
    exact absurd hoccurs (by decide)
  · intro hsource
    obtain ⟨a, b, rfl⟩ := h hsource
    have hplace : a ++ " src=" ++ b = (a ++ [' ']) ++ ("src=" ++ b) := by
      rw [List.append_assoc, List.append_assoc]
      rfl
    have hmatch : sourceAttribute (a ++ [' ']).getLast? ("src=" ++ b) = some ((), b) := by
      rw [List.getLast?_concat]
      have hown : afterAnyCase? "src" "src=" = some "=" := by decide
      have hafter : afterAnyCase? "src" ("src=" ++ b) = some ('=' :: b) :=
        afterAnyCase?_append_right hown b
      rw [sourceAttribute, hafter]
      rfl
    rw [← Pattern.isSome_findOffset?_eq]
    exact Pattern.isSome_findOffset? hplace (by simp) (by rw [hmatch]; rfl)

end

/-! ## Documents -/

/-- A piece of a document. -/
inductive DocumentPiece
  | text (t : Text)
  | startTag (name attributes : Text)
  | endTag (name attributes : Text)
  | comment (body : Text)
  | style (attributes body : Text)
  | script (attributes body : Text)
deriving DecidableEq, Repr

/-- A block as it is written. -/
def blockText (name attributes body : Text) : Text :=
  '<' :: name ++ attributes ++ ['>'] ++ body ++ "</" ++ name ++ ['>']

namespace DocumentPiece

/-- The piece as it is written. -/
def written : DocumentPiece → Text
  | text t => t
  | startTag name attributes => '<' :: name ++ attributes ++ ['>']
  | endTag name attributes => "</" ++ name ++ attributes ++ ['>']
  | comment body => "<!--" ++ body ++ "-->"
  | style attributes body => blockText "style" attributes body
  | script attributes body => blockText "script" attributes body

/-- The piece is complete, and nothing else begins in it. -/
def WellFormed : DocumentPiece → Prop
  | text t => '<' ∉ t
  | startTag name attributes => IsContentName name ∧ IsAttributes attributes
  | endTag name attributes => IsContentName name ∧ IsAttributes attributes
  | comment body => Lacks "-->" body
  | style attributes body => IsBlockAttributes attributes ∧ '<' ∉ body
  | script attributes body => IsBlockAttributes attributes ∧ '<' ∉ body
      ∧ (¬ NamesSource attributes ∨ " src=".toList <:+: attributes)

instance : DecidablePred WellFormed
  | text _ => inferInstanceAs (Decidable (_ ∉ _))
  | startTag _ _ => inferInstanceAs (Decidable (_ ∧ _))
  | endTag _ _ => inferInstanceAs (Decidable (_ ∧ _))
  | comment _ => inferInstanceAs (Decidable (Lacks _ _))
  | style _ _ => inferInstanceAs (Decidable (_ ∧ _))
  | script _ _ => inferInstanceAs (Decidable (_ ∧ _))

/-- What belongs into the fragment. -/
def content : DocumentPiece → Text
  | text t => t
  | startTag name attributes => (startTag name attributes).written
  | endTag name attributes => (endTag name attributes).written
  | _ => []

/-- The text without the blanks around it, if anything is left. -/
def nonEmpty? (body : Text) : Option Text := if trim body = [] then none else some (trim body)

/-- The style sheet that the piece holds. -/
def styleSheet? : DocumentPiece → Option Text
  | style _ body => nonEmpty? body
  | _ => none

/-- The script that the piece holds and does not name the source of. -/
def inlineScript? : DocumentPiece → Option Text
  | script attributes body => if NamesSource attributes then none else nonEmpty? body
  | _ => none

/-- The piece as well-formed markup. -/
def chunks : DocumentPiece → List Chunk
  | text t => t.map .char
  | startTag name attributes => [.tag (name ++ attributes)]
  | endTag name attributes => [.tag ('/' :: (name ++ attributes))]
  | comment body => [.comment body]
  | style attributes body => [.block "style" ("style" ++ attributes) body ('/' :: "style")]
  | script attributes body => [.block "script" ("script" ++ attributes) body ('/' :: "script")]

variable {p : DocumentPiece} {ps : List DocumentPiece}

theorem textOf_chunks (p : DocumentPiece) : textOf p.chunks = p.written := by
  cases p with
  | text t =>
    induction t with
    | nil => rfl
    | cons c t ih => exact congrArg (c :: ·) ih
  | startTag name attributes => simp [textOf, chunks, Chunk.text, tagText, written]
  | endTag name attributes => simp [textOf, chunks, Chunk.text, tagText, written]
  | comment body => simp [textOf, chunks, Chunk.text, written]
  | style attributes body => simp [textOf, chunks, Chunk.text, tagText, written, blockText]
  | script attributes body => simp [textOf, chunks, Chunk.text, tagText, written, blockText]

theorem afterAnyCase?_blockName {name : Text} (hname : name ∈ blockNames) (attributes : Text) :
    afterAnyCase? name (name ++ attributes) = some attributes := by
  have hself : ∀ name ∈ blockNames, afterAnyCase? name name = some [] := by decide
  exact afterAnyCase?_append_right (hself name hname) attributes

theorem wellFormed_block {name attributes body : Text} (hname : name ∈ blockNames)
    (hattributes : IsBlockAttributes attributes) (hbody : '<' ∉ body) :
    (Chunk.block name (name ++ attributes) body ('/' :: name)).WellFormed := by
  obtain ⟨hbracketless, -, hspace⟩ := hattributes
  have hplain : ∀ name ∈ blockNames, Bracketless name ∧ Bracketless ('/' :: name)
      ∧ closes name ('/' :: name) = true := by decide
  obtain ⟨hstart, hend, hcloses⟩ := hplain name hname
  refine ⟨hname, hstart.append hbracketless, ?_, ?_, hend, hcloses⟩
  · rw [named, afterAnyCase?_blockName hname]
    cases attributes with
    | nil => rfl
    | cons c attributes =>
      obtain rfl : c = ' ' := hspace c rfl
      rfl
  · have hlacks (mark : Text) : LacksAnyCase ('<' :: mark) body := lacksAnyCase_of_not_mem rfl hbody
    simp only [List.forall_mem_cons, List.not_mem_nil, false_imp_iff, implies_true, and_true]
    exact ⟨hlacks "!--", hlacks "style", hlacks ('/' :: name)⟩

theorem wellFormed_chunks (h : p.WellFormed) : ∀ x ∈ p.chunks, x.WellFormed := by
  cases p with
  | text t =>
    intro x hx
    obtain ⟨c, hc, rfl⟩ := List.mem_map.1 hx
    exact fun heq => h (heq ▸ hc)
  | startTag name attributes =>
    obtain ⟨hname, hattributes⟩ := h
    have hplain : Bracketless (name ++ attributes) := hname.bracketless.append hattributes.1
    exact List.forall_mem_singleton.2 ⟨hplain, (kept_startTag hname hattributes).1⟩
  | endTag name attributes =>
    obtain ⟨hname, hattributes⟩ := h
    have hplain : Bracketless (['/'] ++ (name ++ attributes)) :=
      Bracketless.append (by decide) (hname.bracketless.append hattributes.1)
    exact List.forall_mem_singleton.2 ⟨hplain, (kept_endTag hname hattributes).1⟩
  | comment body => exact List.forall_mem_singleton.2 h
  | style attributes body => exact List.forall_mem_singleton.2 (wellFormed_block (by decide) h.1 h.2)
  | script attributes body => exact List.forall_mem_singleton.2 (wellFormed_block (by decide) h.1 h.2.1)

/-- The tags of a document are kept to the end. -/
theorem stays_of_mem_chunks (h : p.WellFormed) {u : Text} (hu : .tag u ∈ p.chunks) : Stays u := by
  cases p with
  | startTag name attributes =>
    obtain rfl : u = name ++ attributes := by simpa [chunks] using hu
    exact (kept_startTag h.1 h.2).2
  | endTag name attributes =>
    obtain rfl : u = '/' :: (name ++ attributes) := by simpa [chunks] using hu
    exact (kept_endTag h.1 h.2).2
  | _ => simp [chunks] at hu

/-! ## Where the pieces go -/

theorem textOf_filter_chunks (p : DocumentPiece) : textOf (p.chunks.filter (·.isBare)) = p.content := by
  have hkeep (hall : ∀ x ∈ p.chunks, x.isBare = true) : textOf (p.chunks.filter (·.isBare)) = p.written := by
    rw [List.filter_eq_self.2 hall, textOf_chunks]
  cases p with
  | text t => exact hkeep fun x hx => by obtain ⟨c, -, rfl⟩ := List.mem_map.1 hx; rfl
  | startTag name attributes => exact hkeep (List.forall_mem_singleton.2 rfl)
  | endTag name attributes => exact hkeep (List.forall_mem_singleton.2 rfl)
  | _ => rfl

theorem nonEmptyBodies_eq (bodies : List Text) : nonEmptyBodies bodies = bodies.filterMap nonEmpty? := by
  rw [nonEmptyBodies, List.filter_map, ← List.filterMap_eq_map, List.filterMap_filter]
  refine List.filterMap_congr fun body _ => ?_
  by_cases hbody : trim body = [] <;> simp [nonEmpty?, hbody]

/-- What is read in the chunks of the pieces is what is read in the pieces. -/
theorem filterMap_chunks {f : Chunk → Option Text} {g : DocumentPiece → Option Text}
    (h : ∀ p ∈ ps, p.chunks.filterMap f = (g p).toList) :
    (ps.flatMap chunks).filterMap f = ps.filterMap g := by
  induction ps with
  | nil => rfl
  | cons p ps ih =>
    rw [List.flatMap_cons, List.filterMap_append, h p List.mem_cons_self,
      ih fun q hq => h q (List.mem_cons_of_mem p hq)]
    cases hp : g p with
    | none => rw [List.filterMap_cons_none hp]; rfl
    | some a => rw [List.filterMap_cons_some hp]; rfl

theorem filterMap_block {name : Text} (hname : name ∈ blockNames) (attributes body closing : Text)
    (f : Text × Text → Option Text) :
    [Chunk.block name (name ++ attributes) body closing].filterMap (fun x => (x.blockOf? name).bind f)
      = (f (attributes, body)).toList := by
  have hblock : (Chunk.block name (name ++ attributes) body closing).blockOf? name
      = some (attributes, body) := by
    rw [Chunk.blockOf?, afterAnyCase?_blockName hname, if_pos (beq_self_eq_true name), Option.getD_some]
  rw [List.filterMap_cons, hblock, Option.bind_some]
  cases f (attributes, body) <;> rfl

theorem filterMap_chars (t name : Text) (f : Text × Text → Option Text) :
    (t.map Chunk.char).filterMap (fun x => (x.blockOf? name).bind f) = [] := by
  rw [List.filterMap_map]
  exact List.filterMap_eq_nil_iff.2 fun c _ => rfl

theorem styleSheets_eq (ps : List DocumentPiece) :
    nonEmptyBodies (((ps.flatMap chunks).filterMap (·.blockOf? "style")).map (·.2))
      = ps.filterMap (·.styleSheet?) := by
  rw [nonEmptyBodies_eq, List.filterMap_map, List.filterMap_filterMap]
  refine filterMap_chunks fun p _ => ?_
  cases p with
  | text t => exact filterMap_chars t _ _
  | style attributes body => exact filterMap_block (by decide) attributes body _ _
  | _ => rfl

theorem inlineScripts_eq (h : ∀ p ∈ ps, p.WellFormed) :
    nonEmptyBodies ((((ps.flatMap chunks).filterMap (·.blockOf? "script")).filter
        fun (attributes, _) => !Pattern.occursIn sourceAttribute attributes).map (·.2))
      = ps.filterMap (·.inlineScript?) := by
  rw [nonEmptyBodies_eq, List.filterMap_map, List.filterMap_filter, List.filterMap_filterMap]
  refine filterMap_chunks fun p hp => ?_
  cases p with
  | text t => exact filterMap_chars t _ _
  | script attributes body =>
    obtain ⟨⟨-, hascii, -⟩, -, hsource⟩ := h _ hp
    have hoccurs : Pattern.occursIn sourceAttribute attributes = decide (NamesSource attributes) := by
      have hiff := occursIn_sourceAttribute hascii fun hnames => hsource.resolve_left (not_not_intro hnames)
      rw [Bool.eq_iff_iff, hiff, decide_eq_true_iff]
    refine (filterMap_block (by decide) attributes body _ _).trans (congrArg Option.toList ?_)
    by_cases hnames : NamesSource attributes <;> simp [inlineScript?, hoccurs, hnames]
  | _ => rfl

end DocumentPiece

/-- A document is separated into the fragment, its style sheets and its scripts.  Each piece of it goes
to one of these or, as comments and scripts that name a source, to none, in the order of the pieces. -/
theorem sanitize_document {ps : List DocumentPiece} (h : ∀ p ∈ ps, p.WellFormed) :
    sanitize (ps.flatMap (·.written))
      = { markup := trim (ps.flatMap (·.content))
          styles := ps.filterMap (·.styleSheet?)
          scripts := ps.filterMap (·.inlineScript?) } := by
  have hwritten : ps.flatMap (·.written) = textOf (ps.flatMap (·.chunks)) := by
    simp only [← DocumentPiece.textOf_chunks, textOf, List.flatMap_assoc]
  have hcontent : textOf ((ps.flatMap (·.chunks)).filter (·.isBare)) = ps.flatMap (·.content) := by
    simp only [← DocumentPiece.textOf_filter_chunks, textOf, List.filter_flatMap, List.flatMap_assoc]
  have hwell : ∀ x ∈ ps.flatMap (·.chunks), x.WellFormed := by
    intro x hx
    obtain ⟨p, hp, hx⟩ := List.mem_flatMap.1 hx
    exact DocumentPiece.wellFormed_chunks (h p hp) x hx
  have hstays : ∀ u, .tag u ∈ ps.flatMap (·.chunks) → Stays u := by
    intro u hu
    obtain ⟨p, hp, hu⟩ := List.mem_flatMap.1 hu
    exact DocumentPiece.stays_of_mem_chunks (h p hp) hu
  rw [hwritten, sanitize_textOf hwell hstays, hcontent, DocumentPiece.styleSheets_eq,
    DocumentPiece.inlineScripts_eq h]

/-- A document with tags that look like a page's own, blocks side by side, and a comment that looks like
a block. -/
def articlePieces : List DocumentPiece :=
  [.comment "<style>--", .text " a > b ", .startTag "header" " class=\"top\"", .style "" " p > a \x7b\x7d\n",
    .style " media=\"print\"" " ", .script "" "run()", .script " async src=\"a.js\"" "lost()",
    .script " data-x" " go() ", .endTag "header" " ", .startTag "bodyless" "/", .text "?>"]

/-- Nothing of the document is lost but the comment, an empty block and a script with a source. -/
theorem sanitize_document_article :
    (∀ p ∈ articlePieces, p.WellFormed)
      ∧ sanitize (articlePieces.flatMap (·.written))
        = { markup := "a > b <header class=\"top\"></header ><bodyless/>?>"
            styles := ["p > a \x7b\x7d"]
            scripts := ["run()", "go()"] } := by
  have hwell : ∀ p ∈ articlePieces, p.WellFormed := by decide +kernel
  refine ⟨hwell, (sanitize_document hwell).trans ?_⟩
  rfl

end WidgetCompiler.Markup
