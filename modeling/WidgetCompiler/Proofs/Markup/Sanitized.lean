import Mathlib
import WidgetCompiler.Proofs.Markup.Pieces
import WidgetCompiler.Proofs.Text.Pattern
import WidgetCompiler.Proofs.Text.Replace
import WidgetCompiler.Validation.Markers

/-!
# What is left of well-formed markup

`sanitize` goes over the markup once for each thing that it takes out.  Of well-formed markup it
leaves some of the pieces, and none that does not belong into a fragment (`clean_sanitize`).

Markup that is not well formed can end up with more: where a piece is taken out of the middle of a
tag, the tag that is then closed is not looked at again, and a head without an end stays
(`not_clean_sanitize`).
-/

namespace WidgetCompiler.Markup

open Text Sanitize

/-! ## Fragments -/

/-- There is nothing in the text that does not belong into a fragment: no complete comment, no
complete block of a style sheet or a script, and nothing that the check of a source takes for a
piece of a whole page. -/
structure Clean (s : Text) : Prop where
  comments : ∀ body, ¬ ("<!--" ++ body ++ "-->" : Text) <:+: s
  blocks : ∀ name ∈ blockNames, Pattern.Absent (block name) s
  page : Validation.checkPageStructure (Validation.Source.ofText s) = []

/-! ## Texts in which nothing is opened -/

section

variable {name s t : Text}

/-- No tag begins in the text whose name is the given one and ends in the text. -/
def Unopened (name t : Text) : Prop :=
  ∀ a b rest, t = a ++ b → afterAnyCase? ('<' :: name) b = some rest → rest ≠ [] →
    wordEnds rest = false

theorem Unopened.of_infix (h : Unopened name t) (hs : s <:+: t) : Unopened name s := by
  obtain ⟨l, r, rfl⟩ := hs
  rintro a b rest rfl hrest hne
  have hends := h (l ++ a) (b ++ r) (rest ++ r) (by simp) (afterAnyCase?_append_right hrest r)
    (by simp [hne])
  obtain ⟨c, rest, rfl⟩ := List.exists_cons_of_ne_nil hne
  exact hends

theorem Unopened.absent_block (h : Unopened name t) : Pattern.Absent (block name) t := by
  intro a b hab hb prev
  unfold block
  cases hmark : afterAnyCase? ('<' :: name) b with
  | none => rfl
  | some rest =>
    by_cases hrest : rest = []
    · subst hrest
      rfl
    · have hends := h a b rest hab hmark hrest
      simp [tagRest?, hends]

theorem Unopened.absent_pageTagNamed (h : Unopened name t) :
    Pattern.Absent (Validation.pageTagNamed name) t := by
  intro a b hab hb prev
  unfold Validation.pageTagNamed
  cases hmark : afterAnyCase? ('<' :: name) b with
  | none => rfl
  | some rest =>
    cases rest with
    | nil => rfl
    | cons c rest =>
      have hword : isWordPart c = true := by
        simpa [wordEnds] using h a b (c :: rest) hab hmark (by simp)
      have hblank : isBlank c = false := Bool.eq_false_iff.2 fun hblank => by
        rw [isWordPart_of_isBlank hblank] at hword
        exact Bool.false_ne_true hword
      have hangle : c ≠ '>' := by
        rintro rfl
        exact absurd hword (by decide)
      simp [hblank, hangle]

theorem Unopened.absent_anyCase (h : Unopened name t) :
    Pattern.Absent (Validation.anyCase ('<' :: (name ++ ['>']))) t := by
  intro a b hab hb prev
  have happend : afterAnyCase? ('<' :: (name ++ ['>'])) b
      = (afterAnyCase? ('<' :: name) b).bind (afterAnyCase? ['>']) :=
    afterAnyCase?_append ('<' :: name) ['>'] b
  rw [Validation.anyCase, happend]
  cases hmark : afterAnyCase? ('<' :: name) b with
  | none => rfl
  | some rest =>
    cases rest with
    | nil => rfl
    | cons c rest =>
      have hword : isWordPart c = true := by
        simpa [wordEnds] using h a b (c :: rest) hab hmark (by simp)
      have hangle : sameLetter '>' c = false := Bool.eq_false_iff.2 fun hc => by
        rw [eq_of_sameLetter (by decide) hc] at hword
        exact absurd hword (by decide)
      simp [afterAnyCase?, hangle]

/-- A text in which none of these is opened is clean. -/
theorem clean_of_unopened (hcomment : LacksAnyCase "<!--" t) (htype : LacksAnyCase "<!doctype" t)
    (hnames : ∀ name ∈ (["style", "script", "html", "/html", "head", "body"] : List Text),
      Unopened name t) : Clean t where
  comments body := by
    rintro ⟨a, b, rfl⟩
    have hmem : "<!--" ++ (body ++ "-->" ++ b) ∈ (a ++ ("<!--" ++ body ++ "-->") ++ b).tails :=
      (List.mem_tails _ _).2 ⟨a, by simp⟩
    have hopens : afterAnyCase? "<!--" "<!--" = some [] := by decide
    have := hcomment _ hmem
    rw [afterAnyCase?_append_right hopens] at this
    exact Option.some_ne_none _ this
  blocks name hname := (hnames name (by revert hname; decide +revert)).absent_block
  page := by
    refine List.filterMap_eq_nil_iff.2 fun entry hentry => ?_
    have habsent : Pattern.Absent entry.1 t := by
      simp only [Validation.pagePatterns, List.mem_cons, List.not_mem_nil, or_false] at hentry
      rcases hentry with rfl | rfl | rfl | rfl | rfl
      · intro a b hab hb prev
        have hmem : b ∈ t.tails := (List.mem_tails _ _).2 ⟨a, hab.symm⟩
        change (afterAnyCase? "<!doctype" b).map _ = none
        rw [htype b hmem, Option.map_none]
      · exact (hnames "html" (by decide)).absent_pageTagNamed
      · exact (hnames "/html" (by decide)).absent_anyCase
      · exact (hnames "head" (by decide)).absent_pageTagNamed
      · exact (hnames "body" (by decide)).absent_pageTagNamed
    change (Pattern.findOffset? entry.1 t).map _ = none
    rw [habsent.findOffset?_eq_none, Option.map_none]

end

/-! ## What is opened by pieces -/

/-- The pieces are characters and tags, of which each has the property. -/
def Tags (P : Text → Prop) (xs : List Chunk) : Prop :=
  ∀ x ∈ xs, (∃ c, x = .char c ∧ c ≠ '<') ∨ ∃ u, x = .tag u ∧ Bracketless u ∧ P u

section

variable {P Q : Text → Prop} {xs : List Chunk} {name : Text}

theorem Tags.sublist {ys : List Chunk} (h : Tags P xs) (hys : ys.Sublist xs) : Tags P ys :=
  fun x hx => h x (hys.subset hx)

/-- A `<` opens one of the tags. -/
theorem Tags.exists_tag (h : Tags P xs) {a b : Text} (hab : textOf xs = a ++ '<' :: b) :
    ∃ u rest, Bracketless u ∧ P u ∧ '<' :: b = tagText u ++ rest := by
  induction xs generalizing a with
  | nil => simp [textOf] at hab
  | cons x xs ih =>
    have htail := h.sublist (List.sublist_cons_self x xs)
    rw [textOf, List.flatMap_cons] at hab
    rcases List.append_eq_append_iff.1 hab with ⟨a', rfl, hrest⟩ | ⟨b', hx, hb⟩
    · exact ih htail hrest
    · rcases h x List.mem_cons_self with ⟨c, rfl, hc⟩ | ⟨u, rfl, hu, hP⟩
      · cases b' with
        | nil =>
          rw [List.nil_append] at hb
          exact ih htail (a := []) hb.symm
        | cons d b' =>
          obtain ⟨rfl, -⟩ := List.cons.inj hb
          have hmem : '<' ∈ a ++ '<' :: b' := by simp
          rw [← hx] at hmem
          exact absurd (List.mem_singleton.1 hmem).symm hc
      · cases a with
        | nil =>
          refine ⟨u, textOf xs, hu, hP, ?_⟩
          rw [hb, ← List.nil_append b', ← hx]
          rfl
        | cons d a =>
          have htext : u ++ ['>'] = a ++ b' := (List.cons.inj hx).2
          cases b' with
          | nil =>
            rw [List.nil_append] at hb
            exact ih htail (a := []) hb.symm
          | cons e b' =>
            obtain ⟨rfl, -⟩ := List.cons.inj hb
            have hmem : '<' ∈ a ++ '<' :: b' := by simp
            rw [← htext] at hmem
            exact absurd hmem (by simp [hu.1])

/-- A mark that no tag begins with is lacking. -/
theorem Tags.lacksAnyCase (h : Tags P xs) (hname : IsMark name)
    (hP : ∀ u, P u → afterAnyCase? name u = none) : LacksAnyCase ('<' :: name) (textOf xs) := by
  intro b hb
  obtain ⟨a, hab⟩ := (List.mem_tails _ _).1 hb
  refine Option.eq_none_iff_forall_ne_some.2 fun rest hrest => ?_
  cases b with
  | nil => simp [afterAnyCase?] at hrest
  | cons c b =>
    have hc : sameLetter '<' c = true := by
      by_contra hc
      simp [afterAnyCase?, hc] at hrest
    obtain rfl : c = '<' := eq_of_sameLetter (by decide) hc
    obtain ⟨u, rest', -, hu, htag⟩ := h.exists_tag hab.symm
    rw [htag, afterAnyCase?_tag hname, hP u hu] at hrest
    simp at hrest

/-- A name that no tag has is not opened. -/
theorem Tags.unopened (h : Tags P xs) (hname : IsMark name)
    (hP : ∀ u, P u → named name u = false) : Unopened name (textOf xs) := by
  intro a b rest hab hrest hne
  cases b with
  | nil => simp [afterAnyCase?] at hrest
  | cons c b =>
    have hc : sameLetter '<' c = true := by
      by_contra hc
      simp [afterAnyCase?, hc] at hrest
    obtain rfl : c = '<' := eq_of_sameLetter (by decide) hc
    obtain ⟨u, rest', -, hu, htag⟩ := h.exists_tag hab
    rw [htag, afterAnyCase?_tag hname] at hrest
    obtain ⟨r, hr, rfl⟩ := Option.map_eq_some_iff.1 hrest
    have hnamed : wordEnds r = false := by simpa [named, hr] using hP u hu
    obtain ⟨d, r, rfl⟩ := List.exists_cons_of_ne_nil (l := r) (by
      rintro rfl
      exact absurd hnamed (by decide))
    exact hnamed

end

/-! ## Comments and blocks -/

section

variable {α : Type} {p : Pattern α} {xs : List Chunk} {name mark u : Text}

theorem isSome_of_named (h : named name u = true) : (afterAnyCase? name u).isSome = true := by
  unfold named at h
  split at h
  · next hsome => rw [hsome]; rfl
  · simp at h

theorem isSome_of_closes (h : closes name u = true) :
    (afterAnyCase? ('/' :: name) u).isSome = true := by
  unfold closes at h
  split at h
  · next hsome => rw [hsome]; rfl
  · simp at h

/-- What begins with one mark does not begin with another one that is apart from it. -/
theorem afterAnyCase?_eq_none_of_isSome (h : (afterAnyCase? mark u).isSome = true)
    (hmark : ∀ c ∈ mark ++ name, isAscii c = true) (hapart : ¬ mark <+: name ∧ ¬ name <+: mark) :
    afterAnyCase? name u = none := by
  refine Option.not_isSome_iff_eq_none.1 fun h' => ?_
  rcases prefix_or_prefix_of_isSome (fun c hc => hmark c (List.mem_append_left _ hc))
    (fun c hc => hmark c (List.mem_append_right _ hc)) h h' with h | h
  · exact hapart.1 h
  · exact hapart.2 h

theorem Opens.passes_tag_of_none (hp : Opens p name) (hname : IsMark name) (hu : Bracketless u)
    (h : afterAnyCase? name u = none) : Pattern.Passes p (tagText u) := by
  refine hp.passes_tag hu.1 fun rest => hp _ ?_
  rw [afterAnyCase?_tag hname, h, Option.map_none]

/-- Nothing begins in a block that is opened in none of its parts. -/
theorem Opens.passes_block {opening body closing : Text} (hp : Opens p name) (hname : IsMark name)
    (h : (Chunk.block mark opening body closing).WellFormed)
    (hopening : afterAnyCase? name opening = none) (hbody : LacksAnyCase ('<' :: name) body)
    (hclosing : afterAnyCase? name closing = none) :
    Pattern.Passes p (Chunk.block mark opening body closing).text := by
  obtain ⟨-, hopening', -, -, hclosing', -⟩ := h
  intro rest
  refine Pattern.PassesBefore.append (Pattern.PassesBefore.append ?_ ?_) ?_
  · exact hp.passes_tag_of_none hname hopening' hopening _
  · exact hp.passes_body hname hbody _
  · exact hp.passes_tag_of_none hname hclosing' hclosing _

theorem Opens.passes_char (hp : Opens p name) {c : Char} (hc : c ≠ '<') :
    Pattern.Passes p (Chunk.char c).text :=
  hp.passes_of_not_mem fun hm => hc (List.mem_singleton.1 hm).symm

/-- The first time, the comments are taken out. -/
theorem extract_comment (h : ∀ x ∈ xs, x.WellFormed) :
    (Pattern.extract comment (textOf xs)).1 = textOf (xs.filter (!·.isComment)) := by
  have hforward : comment.Forward := fun _ _ _ => rfl
  have hmark : IsMark "!--" := by decide
  refine hforward.fst_extract_flatMap (fun x hx hcomment => ?_) (fun x hx hcomment => ?_)
  · cases x with
    | comment body => exact reads_comment (h _ hx)
    | _ => simp [Chunk.isComment] at hcomment
  · cases x with
    | char c => exact opens_comment.passes_char (h _ hx)
    | tag u => exact opens_comment.passes_tag_of_none hmark (h _ hx).1 (h _ hx).2.1
    | comment body => simp [Chunk.isComment] at hcomment
    | block name opening body closing =>
      obtain ⟨hname, -, hnamed, hbody, -, hcloses⟩ := h _ hx
      have hapart : ∀ name ∈ blockNames, (∀ c ∈ name ++ "!--", isAscii c = true)
          ∧ (∀ c ∈ '/' :: name ++ "!--", isAscii c = true)
          ∧ (¬ name <+: "!--" ∧ ¬ "!--" <+: name)
          ∧ (¬ '/' :: name <+: "!--" ∧ ¬ "!--" <+: '/' :: name) := by decide
      obtain ⟨hascii, hascii', hopen, hclose⟩ := hapart name hname
      exact opens_comment.passes_block hmark (h _ hx)
        (afterAnyCase?_eq_none_of_isSome (isSome_of_named hnamed) hascii hopen)
        (hbody "<!--" (by simp))
        (afterAnyCase?_eq_none_of_isSome (isSome_of_closes hcloses) hascii' hclose)

/-- Then the blocks of a name are taken out and read, if none is opened in the other blocks. -/
theorem extract_block (hname : name ∈ blockNames) (h : ∀ x ∈ xs, x.WellFormed)
    (hcomment : ∀ x ∈ xs, x.isComment = false)
    (hbody : ∀ mark opening body closing, .block mark opening body closing ∈ xs → mark ≠ name →
      LacksAnyCase ('<' :: name) body) :
    Pattern.extract (block name) (textOf xs)
      = (textOf (xs.filter (!·.isBlock name)), xs.filterMap (·.blockOf? name)) := by
  have hforward : (block name).Forward := fun _ _ _ => rfl
  have hmark : IsMark name := by
    have : ∀ name ∈ blockNames, IsMark name := by decide
    exact this name hname
  have hreads : ∀ x ∈ xs, ∀ found, x.blockOf? name = some found →
      Pattern.ReadsAs (block name) x.text found := by
    intro x hx found hfound
    cases x with
    | block mark opening body closing =>
      by_cases hne : mark = name
      · subst hne
        obtain rfl : _ = found := by simpa [Chunk.blockOf?] using hfound
        exact reads_block hmark (h _ hx)
      · simp [Chunk.blockOf?, hne] at hfound
    | _ => simp [Chunk.blockOf?] at hfound
  have hpasses : ∀ x ∈ xs, x.blockOf? name = none → Pattern.Passes (block name) x.text := by
    intro x hx hnone
    cases x with
    | char c => exact (opens_block name).passes_char (h _ hx)
    | tag u =>
      obtain ⟨hu, -, hnamed⟩ := h _ hx
      refine (opens_block name).passes_tag hu.1 fun rest => ?_
      rw [block_tag hmark hu, hnamed name hname, if_neg Bool.false_ne_true]
    | comment body => exact absurd (hcomment _ hx) (by simp [Chunk.isComment])
    | block mark opening body closing =>
      have hne : mark ≠ name := by simpa [Chunk.blockOf?] using hnone
      obtain ⟨hmem, -, hnamed, -, -, hcloses⟩ := h _ hx
      have hapart : ∀ mark ∈ blockNames, ∀ name ∈ blockNames, mark ≠ name →
          (∀ c ∈ mark ++ name, isAscii c = true) ∧ (∀ c ∈ '/' :: mark ++ name, isAscii c = true)
          ∧ (¬ mark <+: name ∧ ¬ name <+: mark)
          ∧ (¬ '/' :: mark <+: name ∧ ¬ name <+: '/' :: mark) := by decide
      obtain ⟨hascii, hascii', hopen, hclose⟩ := hapart mark hmem name hname hne
      exact (opens_block name).passes_block hmark (h _ hx)
        (afterAnyCase?_eq_none_of_isSome (isSome_of_named hnamed) hascii hopen)
        (hbody mark opening body closing hx hne)
        (afterAnyCase?_eq_none_of_isSome (isSome_of_closes hcloses) hascii' hclose)
  have hextract := hforward.extract_flatMap hreads hpasses
  simp only [Chunk.isNone_blockOf?] at hextract
  exact hextract

end

/-! ## The page's own tags -/

/-- The piece is an end tag of the head. -/
def Chunk.closesHead : Chunk → Bool
  | tag u => closes "head" u
  | _ => false

/-- Behind each start tag of the head there is an end tag. -/
def headsClosed : List Chunk → Bool
  | [] => true
  | .tag u :: xs => (!named "head" u || xs.any (·.closesHead)) && headsClosed xs
  | _ :: xs => headsClosed xs

/-- The tag is one of the page's own and stands for itself. -/
def ofPage (u : Text) : Bool :=
  (afterAnyCase? "!doctype" u).isSome || named "html" u || named "/html" u || named "body" u
    || named "/body" u

theorem headsClosed_suffix {xs ys : List Chunk} (h : headsClosed xs = true) (hys : ys <:+ xs) :
    headsClosed ys = true := by
  obtain ⟨front, rfl⟩ := hys
  induction front with
  | nil => exact h
  | cons x front ih =>
    refine ih ?_
    cases x with
    | tag u => exact (Bool.and_eq_true_iff.1 h).2
    | _ => exact h

theorem headsClosed_filter {xs : List Chunk} {keep : Chunk → Bool} (h : headsClosed xs = true)
    (hkeep : ∀ u, keep (.tag u) = true) : headsClosed (xs.filter keep) = true := by
  induction xs with
  | nil => rfl
  | cons x xs ih =>
    cases x with
    | tag u =>
      obtain ⟨hhead, hxs⟩ := Bool.and_eq_true_iff.1 h
      rw [List.filter_cons_of_pos (hkeep u)]
      refine Bool.and_eq_true_iff.2 ⟨?_, ih hxs⟩
      rcases Bool.or_eq_true_iff.1 hhead with hnamed | hany
      · exact Bool.or_eq_true_iff.2 (.inl hnamed)
      · obtain ⟨y, hy, hcloses⟩ := List.any_eq_true.1 hany
        refine Bool.or_eq_true_iff.2 (.inr (List.any_eq_true.2 ⟨y, ?_, hcloses⟩))
        cases y with
        | tag v => exact List.mem_filter.2 ⟨hy, hkeep v⟩
        | _ => simp [Chunk.closesHead] at hcloses
    | _ =>
      rw [List.filter_cons]
      split
      · exact ih h
      · exact ih h

section

variable {P : Text → Prop} {xs : List Chunk} {u : Text}

/-- The head reaches to its first end tag. -/
theorem exists_headEnd (h : Tags P xs) (hany : xs.any (·.closesHead) = true)
    (prev : Option Char) : ∃ body after, after <:+ xs
      ∧ Pattern.find? (blockEnd "head") prev (textOf xs) = some (body, (), textOf after) := by
  have hmark : IsMark "head" := by decide
  have hforward : (blockEnd "head").Forward := fun _ _ _ => rfl
  induction xs generalizing prev with
  | nil => simp at hany
  | cons x xs ih =>
    have htail := h.sublist (List.sublist_cons_self x xs)
    have hskip (hx : x.closesHead = false) (hpasses : (blockEnd "head").Passes x.text) :
        ∃ body after, after <:+ x :: xs ∧ Pattern.find? (blockEnd "head") prev (textOf (x :: xs))
          = some (body, (), textOf after) := by
      have hrest : xs.any (·.closesHead) = true := by simpa [hx] using hany
      obtain ⟨prev', hfind⟩ := hforward.find?_append prev (hpasses (textOf xs))
      obtain ⟨body, after, hafter, hbody⟩ := ih htail hrest prev'
      refine ⟨x.text ++ body, after, hafter.trans (List.suffix_cons x xs), ?_⟩
      change Pattern.find? _ prev (x.text ++ textOf xs) = _
      rw [hfind, hbody]
      rfl
    rcases h x List.mem_cons_self with ⟨c, rfl, hc⟩ | ⟨u, rfl, hu, -⟩
    · exact hskip rfl ((opens_blockEnd "head").passes_char hc)
    · by_cases hcloses : closes "head" u = true
      · have hmatch : blockEnd "head" prev (textOf (.tag u :: xs)) = some ((), textOf xs) := by
          change blockEnd "head" prev (tagText u ++ textOf xs) = _
          rw [blockEnd_tag hmark hu, if_pos hcloses]
        have hne : textOf (.tag u :: xs) ≠ [] := by simp [textOf, Chunk.text, tagText]
        exact ⟨[], xs, List.suffix_cons _ xs, Pattern.find?_of_match hne hmatch⟩
      · refine hskip (Bool.eq_false_iff.2 hcloses) ?_
        refine (opens_blockEnd "head").passes_tag hu.1 fun rest => ?_
        rw [blockEnd_tag hmark hu, if_neg hcloses]

/-- A tag of the page, apart from the head, is taken out alone; any other tag stays. -/
theorem pageTag_tag (hu : Bracketless u) (hhead : named "head" u = false) (rest : Text) :
    pageTag none (tagText u ++ rest) = if ofPage u then some ((), rest) else none := by
  have htag (name : Text) (hname : IsMark name) := tagOf_tag hname hu none rest
  have hhtml := htag "html" (by decide)
  have hhtmlEnd := htag "/html" (by decide)
  have hbody := htag "body" (by decide)
  have hbodyEnd := htag "/body" (by decide)
  have hblock : block "head" none (tagText u ++ rest) = none := by
    rw [block_tag (by decide) hu, hhead, if_neg Bool.false_ne_true]
  change (documentType none (tagText u ++ rest)
    <|> (block "head" none (tagText u ++ rest)).map (fun found => ((), found.2))
    <|> tagOf ('<' :: "html") none (tagText u ++ rest)
    <|> tagOf ('<' :: "/html") none (tagText u ++ rest)
    <|> tagOf ('<' :: "body") none (tagText u ++ rest)
    <|> tagOf ('<' :: "/body") none (tagText u ++ rest)) = _
  rw [documentType_tag hu, hblock, hhtml, hhtmlEnd, hbody, hbodyEnd, ofPage]
  cases (afterAnyCase? "!doctype" u).isSome <;> cases named "html" u <;> cases named "/html" u <;>
    cases named "body" u <;> cases named "/body" u <;> rfl

/-- A start tag of the head is taken out with everything up to the end of the head. -/
theorem pageTag_head (hu : Bracketless u) (hhead : named "head" u = true) {rest body after : Text}
    (hfind : Pattern.find? (blockEnd "head") none rest = some (body, (), after)) :
    pageTag none (tagText u ++ rest) = some ((), after) := by
  have htype : afterAnyCase? "!doctype" u = none :=
    afterAnyCase?_eq_none_of_isSome (isSome_of_named hhead) (by decide) (by decide)
  have hnone : documentType none (tagText u ++ rest) = none := by
    rw [documentType_tag hu, htype]
    rfl
  rw [pageTag, hnone, block_tag (by decide) hu, hhead, if_pos rfl, hfind]
  rfl

theorem opens_pageTag : Opens pageTag [] := by
  intro s hs
  have hnone (mark : Text) : afterAnyCase? ('<' :: mark) s = none := by
    have happend : afterAnyCase? ('<' :: mark) s
        = (afterAnyCase? ['<'] s).bind (afterAnyCase? mark) := afterAnyCase?_append ['<'] mark s
    rw [happend, hs, Option.bind_none]
  have htag (name : Text) : tagOf ('<' :: name) none s = none := by rw [tagOf, hnone]
  have htype : documentType none s = none := by
    have := hnone "!doctype"
    unfold documentType
    split
    · next hsome => exact absurd (this.symm.trans hsome) (by simp)
    · rfl
  have hblock : block "head" none s = none := opens_block "head" s (hnone "head")
  change (documentType none s
    <|> (block "head" none s).map (fun found => ((), found.2))
    <|> tagOf ('<' :: "html") none s <|> tagOf ('<' :: "/html") none s
    <|> tagOf ('<' :: "body") none s <|> tagOf ('<' :: "/body") none s) = none
  rw [htype, hblock, htag, htag, htag, htag]
  rfl

/-- The tag is none of the page's own. -/
def Remains (P : Text → Prop) (u : Text) : Prop := P u ∧ named "head" u = false ∧ ofPage u = false

/-- Of the pieces some are left when the page's own tags are taken out. -/
def Leaves (P : Text → Prop) (xs : List Chunk) : Prop :=
  ∃ kept, kept.Sublist xs ∧ (Pattern.extract pageTag (textOf xs)).1 = textOf kept
    ∧ Tags (Remains P) kept

theorem Leaves.nil : Leaves P [] :=
  ⟨[], List.Sublist.refl _, by simp [textOf, Pattern.extract, Pattern.extractFrom],
    fun _ hx => absurd hx List.not_mem_nil⟩

/-- A match is taken out, and the search goes on behind it. -/
theorem Leaves.of_match {after : List Chunk} (h : Leaves P after) (hafter : after <:+ xs)
    (hmatch : pageTag none (textOf (.tag u :: xs)) = some ((), textOf after)) :
    Leaves P (.tag u :: xs) := by
  have hforward : pageTag.Forward := fun _ _ _ => rfl
  have hlength : (textOf after).length < (textOf (.tag u :: xs)).length := by
    obtain ⟨front, rfl⟩ := hafter
    simp only [textOf, Chunk.text, tagText, List.flatMap_cons, List.flatMap_append,
      List.length_append, List.length_cons]
    omega
  obtain ⟨kept, hkept, hextract, htags⟩ := h
  refine ⟨kept, hkept.trans (hafter.trans (List.suffix_cons _ xs)).sublist, ?_, htags⟩
  rw [hforward.extract_match hmatch hlength]
  exact hextract

/-- A piece in which nothing begins is kept. -/
theorem Leaves.cons {x : Chunk} (h : Leaves P xs) (hpasses : pageTag.Passes x.text)
    (hx : Tags (Remains P) [x]) : Leaves P (x :: xs) := by
  have hforward : pageTag.Forward := fun _ _ _ => rfl
  obtain ⟨kept, hkept, hextract, htags⟩ := h
  refine ⟨x :: kept, hkept.cons_cons x, ?_, fun y hy => ?_⟩
  · change (Pattern.extract pageTag (x.text ++ textOf xs)).1 = x.text ++ textOf kept
    rw [hforward.extract_append (hpasses _)]
    exact congrArg (x.text ++ ·) hextract
  · rcases List.mem_cons.1 hy with rfl | hy
    · exact hx y List.mem_cons_self
    · exact htags y hy

/-- Where all heads are closed, the page's own tags are taken out. -/
theorem leaves_of_headsClosed (h : Tags P xs) (hheads : headsClosed xs = true) : Leaves P xs := by
  induction hn : xs.length using Nat.strong_induction_on generalizing xs with
  | _ n ih =>
    have hrest {x : Chunk} {ys after : List Chunk} (hxs : xs = x :: ys) (hafter : after <:+ ys) :
        Leaves P after := by
      have hsuffix : after <:+ xs := hxs ▸ hafter.trans (List.suffix_cons x ys)
      have hlength := hafter.length_le
      exact ih after.length (by rw [← hn, hxs, List.length_cons]; omega)
        (h.sublist hsuffix.sublist) (headsClosed_suffix hheads hsuffix) rfl
    cases xs with
    | nil => exact Leaves.nil
    | cons x xs =>
      have hleaves : Leaves P xs := hrest rfl List.suffix_rfl
      rcases h x List.mem_cons_self with ⟨c, rfl, hc⟩ | ⟨u, rfl, hu, hP⟩
      · refine hleaves.cons (opens_pageTag.passes_char hc) fun y hy => ?_
        exact .inl ⟨c, List.mem_singleton.1 hy, hc⟩
      · cases hhead : named "head" u with
        | true =>
          have hany : xs.any (·.closesHead) = true := by
            have := (Bool.and_eq_true_iff.1 hheads).1
            rwa [hhead, Bool.not_true, Bool.false_or] at this
          obtain ⟨body, after, hafter, hfind⟩ :=
            exists_headEnd (h.sublist (List.sublist_cons_self _ xs)) hany none
          exact (hrest rfl hafter).of_match hafter (pageTag_head hu hhead hfind)
        | false =>
          cases hpage : ofPage u with
          | true =>
            refine hleaves.of_match List.suffix_rfl ?_
            exact (pageTag_tag hu hhead _).trans (if_pos hpage)
          | false =>
            refine hleaves.cons (opens_pageTag.passes_tag hu.1 fun rest => ?_) fun y hy => ?_
            · rw [pageTag_tag hu hhead, hpage, if_neg Bool.false_ne_true]
            · exact .inr ⟨u, List.mem_singleton.1 hy, hu, hP, hhead, hpage⟩

end

/-! ## Instructions -/

section

variable {P : Text → Prop} {xs : List Chunk}

/-- The piece is an instruction. -/
def Chunk.isInstruction : Chunk → Bool
  | tag u => u.head? == some '?'
  | _ => false

theorem extract_instruction (h : Tags P xs) :
    (Pattern.extract instruction (textOf xs)).1 = textOf (xs.filter (!·.isInstruction)) := by
  have hforward : instruction.Forward := fun _ _ _ => rfl
  refine hforward.fst_extract_flatMap (fun x hx hinstruction => ?_) (fun x hx hinstruction => ?_)
  · rcases h x hx with ⟨c, rfl, -⟩ | ⟨u, rfl, hu, -⟩
    · simp [Chunk.isInstruction] at hinstruction
    · refine ⟨by simp [Chunk.text, tagText], fun rest => ?_⟩
      rw [Chunk.text, instruction_tag hu, if_pos (eq_of_beq hinstruction)]
  · rcases h x hx with ⟨c, rfl, hc⟩ | ⟨u, rfl, hu, -⟩
    · exact opens_instruction.passes_char hc
    · refine opens_instruction.passes_tag hu.1 fun rest => ?_
      have hne : u.head? ≠ some '?' := by simpa [Chunk.isInstruction] using hinstruction
      rw [instruction_tag hu, if_neg hne]

end

/-! ## Fragments of well-formed markup -/

/-- A tag that is kept when comments and blocks are taken out. -/
def Kept (u : Text) : Prop := afterAnyCase? "!--" u = none ∧ ∀ name ∈ blockNames, named name u = false

/-- The characters and tags of well-formed markup. -/
theorem tags_filter_isBare {xs : List Chunk} (h : ∀ x ∈ xs, x.WellFormed) :
    Tags Kept (xs.filter (·.isBare)) := by
  intro x hx
  obtain ⟨hx, hbare⟩ := List.mem_filter.1 hx
  cases x with
  | char c => exact .inl ⟨c, rfl, h _ hx⟩
  | tag u => exact .inr ⟨u, rfl, h _ hx⟩
  | comment body => simp [Chunk.isBare] at hbare
  | block name opening body closing => simp [Chunk.isBare] at hbare

/-- First the comments are taken out, then the style blocks, then the scripts.  What stands in the
blocks is listed, and characters and tags are left. -/
theorem extract_blocks {xs : List Chunk} (h : ∀ x ∈ xs, x.WellFormed) :
    ∃ s, Pattern.extract (block "style") (Pattern.extract comment (textOf xs)).1
        = (s, xs.filterMap (·.blockOf? "style"))
      ∧ Pattern.extract (block "script") s
        = (textOf (xs.filter (·.isBare)), xs.filterMap (·.blockOf? "script")) := by
  have hstyle : ∀ x ∈ xs.filter (!·.isComment), x.WellFormed :=
    fun x hx => h x (List.mem_filter.1 hx).1
  have hstyle' : ∀ x ∈ xs.filter (!·.isComment), x.isComment = false :=
    fun x hx => by simpa using (List.mem_filter.1 hx).2
  have hscript : ∀ x ∈ (xs.filter (!·.isComment)).filter (!·.isBlock "style"), x.WellFormed :=
    fun x hx => hstyle x (List.mem_filter.1 hx).1
  have hscript' : ∀ x ∈ (xs.filter (!·.isComment)).filter (!·.isBlock "style"),
      x.isComment = false := fun x hx => hstyle' x (List.mem_filter.1 hx).1
  -- what an earlier pass takes out is nothing that a later one lists
  have hlisted {keep : Chunk → Bool} {name : Text}
      (hkeep : ∀ x, keep x = false → x.blockOf? name = none) (ys : List Chunk) :
      (ys.filter keep).filterMap (·.blockOf? name) = ys.filterMap (·.blockOf? name) := by
    rw [List.filterMap_filter]
    refine List.filterMap_congr fun x _ => ?_
    split
    · rfl
    · next hx => exact (hkeep x (Bool.eq_false_iff.2 hx)).symm
  have hcomment {name : Text} (x : Chunk) (hx : (!x.isComment) = false) : x.blockOf? name = none := by
    cases x with
    | comment body => rfl
    | _ => simp [Chunk.isComment] at hx
  have hother (x : Chunk) (hx : (!x.isBlock "style") = false) : x.blockOf? "script" = none := by
    cases x with
    | block name opening body closing =>
      obtain rfl : name = "style".toList := by simpa [Chunk.isBlock] using hx
      rfl
    | _ => rfl
  have hbare : (((xs.filter (!·.isComment)).filter (!·.isBlock "style")).filter (!·.isBlock "script"))
      = xs.filter (·.isBare) := by
    rw [List.filter_filter, List.filter_filter]
    refine List.filter_congr fun x hx => ?_
    cases x with
    | block name opening body closing =>
      have hname : name = "style".toList ∨ name = "script".toList := by
        simpa [blockNames] using (h _ hx).1
      rcases hname with rfl | rfl <;> rfl
    | _ => rfl
  refine ⟨textOf ((xs.filter (!·.isComment)).filter (!·.isBlock "style")), ?_, ?_⟩
  · rw [extract_comment h, extract_block (by decide) hstyle hstyle' fun mark opening body closing hx _ =>
      (hstyle _ hx).2.2.2.1 _ (by simp), hlisted hcomment]
  · rw [extract_block (by decide) hscript hscript' fun mark opening body closing hx hne => ?_,
      hbare, hlisted hother, hlisted hcomment]
    obtain ⟨hx, hnoStyle⟩ := List.mem_filter.1 hx
    have hname : mark = "style".toList ∨ mark = "script".toList := by
      simpa [blockNames] using (hstyle _ hx).1
    rcases hname with rfl | rfl
    · simp [Chunk.isBlock] at hnoStyle
    · exact absurd rfl hne

/-- Without its comments and blocks, well-formed markup is characters and tags. -/
theorem exists_tags {xs : List Chunk} (h : ∀ x ∈ xs, x.WellFormed) (hheads : headsClosed xs = true) :
    ∃ ys, ys.Sublist xs ∧ Tags Kept ys ∧ headsClosed ys = true
      ∧ (Pattern.extract (block "script") (Pattern.extract (block "style")
          (Pattern.extract comment (textOf xs)).1).1).1 = textOf ys := by
  obtain ⟨s, hstyle, hscript⟩ := extract_blocks h
  refine ⟨xs.filter (·.isBare), List.filter_sublist, tags_filter_isBare h,
    headsClosed_filter hheads fun _ => rfl, ?_⟩
  rw [hstyle, hscript]

theorem markup_sanitize (s : Text) :
    (sanitize s).markup = trim (replace "<?" "&lt;?" (Pattern.extract instruction
      (Pattern.extract pageTag (Pattern.extract (block "script") (Pattern.extract (block "style")
        (Pattern.extract comment s).1).1).1).1).1) := rfl

/-- Of well-formed markup in which every head is closed, whole pieces are left, and they make a clean
fragment. -/
theorem clean_sanitize {xs : List Chunk} (h : ∀ x ∈ xs, x.WellFormed)
    (hheads : headsClosed xs = true) :
    (∃ kept, kept.Sublist xs ∧ (sanitize (textOf xs)).markup = trim (textOf kept))
      ∧ Clean (sanitize (textOf xs)).markup := by
  obtain ⟨ys, hys, htags, hclosed, hblocks⟩ := exists_tags h hheads
  obtain ⟨zs, hzs, hpage, hremain⟩ := leaves_of_headsClosed htags hclosed
  have hleft : Tags (fun u => Remains Kept u ∧ u.head? ≠ some '?')
      (zs.filter (!·.isInstruction)) := by
    intro x hx
    obtain ⟨hx, hinstruction⟩ := List.mem_filter.1 hx
    rcases hremain x hx with ⟨c, rfl, hc⟩ | ⟨u, rfl, hu, hP⟩
    · exact .inl ⟨c, rfl, hc⟩
    · exact .inr ⟨u, rfl, hu, hP, by simpa [Chunk.isInstruction] using hinstruction⟩
  have hinstruction : LacksAnyCase "<?" (textOf (zs.filter (!·.isInstruction))) := by
    have hmark : IsMark "?" := by decide
    refine hleft.lacksAnyCase hmark fun u hu => ?_
    cases u with
    | nil => rfl
    | cons c u =>
      have hc : sameLetter '?' c = false := Bool.eq_false_iff.2 fun hc =>
        hu.2 (congrArg some (eq_of_sameLetter (by decide) hc))
      change (if sameLetter '?' c then _ else none) = none
      rw [hc, if_neg Bool.false_ne_true]
  have hmarkup : (sanitize (textOf xs)).markup = trim (textOf (zs.filter (!·.isInstruction))) := by
    rw [markup_sanitize, hblocks, hpage, extract_instruction hremain,
      replace_of_lacks (by decide) _ (hinstruction.lacks (by decide))]
  refine ⟨⟨_, (List.filter_sublist.trans hzs).trans hys, hmarkup⟩, ?_⟩
  rw [hmarkup]
  have hinfix := trim_infix (textOf (zs.filter (!·.isInstruction)))
  have hnames {name : Text} (hname : IsMark name)
      (hP : ∀ u, Remains Kept u ∧ u.head? ≠ some '?' → named name u = false) :
      Unopened name (trim (textOf (zs.filter (!·.isInstruction)))) :=
    Unopened.of_infix (hleft.unopened hname hP) hinfix
  have hpage {u : Text} (hu : Remains Kept u ∧ u.head? ≠ some '?') :
      (afterAnyCase? "!doctype" u).isSome = false ∧ named "html" u = false
        ∧ named "/html" u = false ∧ named "body" u = false := by
    have := hu.1.2.2
    simp only [ofPage, Bool.or_eq_false_iff] at this
    exact ⟨this.1.1.1.1, this.1.1.1.2, this.1.1.2, this.1.2⟩
  have hcomment : LacksAnyCase "<!--" (textOf (zs.filter (!·.isInstruction))) := by
    have hmark : IsMark "!--" := by decide
    exact hleft.lacksAnyCase hmark fun u hu => hu.1.1.1
  have htype : LacksAnyCase "<!doctype" (textOf (zs.filter (!·.isInstruction))) := by
    have hmark : IsMark "!doctype" := by decide
    refine hleft.lacksAnyCase hmark fun u hu => ?_
    have hnone := (hpage hu).1
    rwa [Option.isSome_eq_false_iff, Option.isNone_iff_eq_none] at hnone
  refine clean_of_unopened (hcomment.of_infix hinfix) (htype.of_infix hinfix) fun name hname => ?_
  simp only [List.mem_cons, List.not_mem_nil, or_false] at hname
  rcases hname with rfl | rfl | rfl | rfl | rfl | rfl
  · exact hnames (by decide) fun u hu => hu.1.1.2 _ (by decide)
  · exact hnames (by decide) fun u hu => hu.1.1.2 _ (by decide)
  · exact hnames (by decide) fun u hu => (hpage hu).2.1
  · exact hnames (by decide) fun u hu => (hpage hu).2.2.1
  · exact hnames (by decide) fun u hu => hu.1.2.1
  · exact hnames (by decide) fun u hu => (hpage hu).2.2.2

/-- A page with a head, a comment and a style sheet. -/
def pagePieces : List Chunk :=
  [.tag "!DOCTYPE html", .tag "html lang=\"en\"", .tag "head", .tag "title", .char 'T', .tag "/title",
    .tag "/head", .tag "BODY", .comment " <b> -- ", .block "style" "style" " a > b \x7b\x7d " "/STYLE ",
    .tag "p", .char '>', .tag "/p", .tag "?php x", .tag "/BODY", .tag "/html"]

/-- Of the page its text is left. -/
theorem clean_sanitize_page :
    (∀ x ∈ pagePieces, x.WellFormed) ∧ headsClosed pagePieces = true
      ∧ (sanitize (textOf pagePieces)).markup = "<p>></p>"
      ∧ Clean (sanitize (textOf pagePieces)).markup := by
  have hwell : ∀ x ∈ pagePieces, x.WellFormed := by decide
  have hheads : headsClosed pagePieces = true := by decide
  have hmarkup : (sanitize (textOf pagePieces)).markup = "<p>></p>" := by cbv
  exact ⟨hwell, hheads, hmarkup, (clean_sanitize hwell hheads).2⟩

/-- A comment in the middle of the mark of another one brings that other one about, a tag within a tag
brings about a tag of the page, and a head that is not closed stays. -/
theorem not_clean_sanitize :
    (sanitize "<!-<!-- x -->- y --><p>x</p>").markup = "<!-- y --><p>x</p>"
      ∧ ¬ Clean (sanitize "<!-<!-- x -->- y --><p>x</p>").markup
      ∧ ¬ Clean (sanitize "<ht<html>ml><p>x</p>").markup
      ∧ ¬ Clean (sanitize "<head><p>x</p>").markup := by
  have hcomment : (sanitize "<!-<!-- x -->- y --><p>x</p>").markup = "<!-- y --><p>x</p>" := by cbv
  have hhtml : (sanitize "<ht<html>ml><p>x</p>").markup = "<html><p>x</p>" := by cbv
  have hhead : (sanitize "<head><p>x</p>").markup = "<head><p>x</p>" := by cbv
  refine ⟨hcomment, fun h => ?_, fun h => ?_, fun h => ?_⟩
  · exact h.comments " y " (by rw [hcomment]; decide)
  · have hpage := h.page
    rw [hhtml] at hpage
    exact absurd hpage (by decide)
  · have hpage := h.page
    rw [hhead] at hpage
    exact absurd hpage (by decide)

end WidgetCompiler.Markup
