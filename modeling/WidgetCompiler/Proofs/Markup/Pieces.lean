import WidgetCompiler.Markup.Sanitize
import WidgetCompiler.Proofs.Text.AnyCase
import WidgetCompiler.Proofs.Text.Blank
import WidgetCompiler.Proofs.Text.Extract
import WidgetCompiler.Proofs.Text.Run
import Mathlib.Data.List.TakeWhile

/-!
# Markup in pieces

Well-formed markup is a sequence of pieces: characters, tags, comments, and blocks of style sheets
or scripts, each complete before the next one begins.  What `sanitize` looks for begins with a `<`,
so at a tag it depends on the text in the tag (`tagOf_tag`, `block_tag`), and nothing begins between
the pieces.
-/

namespace WidgetCompiler.Text

/-! ## Marks before a character that they do not have -/

/-- Whether a mark goes on is settled by the text up to a character that the mark does not have. -/
theorem afterAnyCase?_before {mark : Text} {c : Char} (hc : ∀ m ∈ mark, sameLetter m c = false)
    (u rest : Text) :
    afterAnyCase? mark (u ++ c :: rest) = (afterAnyCase? mark u).map (· ++ c :: rest) := by
  induction mark generalizing u with
  | nil => rfl
  | cons m mark ih =>
    cases u with
    | nil =>
      have hm : sameLetter m c = false := hc m List.mem_cons_self
      simp [afterAnyCase?, hm]
    | cons d u =>
      simp only [List.cons_append, afterAnyCase?]
      split
      · exact ih (fun n hn => hc n (List.mem_cons_of_mem m hn)) u
      · rfl

theorem sameLetter_inj {m n c : Char} (hm : isAscii m = true) (hn : isAscii n = true)
    (h : sameLetter m c = true) (h' : sameLetter n c = true) : m = n := by
  have hlong : ('ſ').toLower = 'ſ' ∧ ('\u212a').toLower = '\u212a' := by decide
  simp only [sameLetter, Bool.or_eq_true, Bool.and_eq_true, beq_iff_eq] at h h'
  rcases h with (rfl | ⟨rfl, rfl⟩) | ⟨rfl, rfl⟩ <;> rcases h' with (rfl | ⟨rfl, h'⟩) | ⟨rfl, h'⟩ <;>
    simp_all <;> revert hn hm <;> decide

/-- Of two marks that begin in one place, one begins with the other. -/
theorem prefix_or_prefix_of_isSome {m n u : Text} (hm : ∀ c ∈ m, isAscii c = true)
    (hn : ∀ c ∈ n, isAscii c = true) (h : (afterAnyCase? m u).isSome = true)
    (h' : (afterAnyCase? n u).isSome = true) : m <+: n ∨ n <+: m := by
  induction m generalizing n u with
  | nil => exact .inl List.nil_prefix
  | cons a m ih =>
    cases n with
    | nil => exact .inr List.nil_prefix
    | cons b n =>
      cases u with
      | nil => simp [afterAnyCase?] at h
      | cons c u =>
        simp only [afterAnyCase?] at h h'
        split at h
        · next ha =>
          split at h'
          · next hb =>
            obtain rfl := sameLetter_inj (hm a List.mem_cons_self) (hn b List.mem_cons_self) ha hb
            have := ih (fun c hc => hm c (List.mem_cons_of_mem _ hc))
              (fun c hc => hn c (List.mem_cons_of_mem _ hc)) h h'
            simpa [List.cons_prefix_cons] using this
          · simp at h'
        · simp at h

/-- No blank is part of a word. -/
theorem isWordPart_of_isBlank {c : Char} (h : isBlank c = true) : isWordPart c = false := by
  have hcodes : ∀ n ∈ ([9, 10, 11, 12, 13, 0x20, 0x85, 0xA0, 0x1680, 0x2000, 0x2001, 0x2002, 0x2003,
      0x2004, 0x2005, 0x2006, 0x2007, 0x2008, 0x2009, 0x200A, 0x2028, 0x2029, 0x202F, 0x205F,
      0x3000] : List Nat), isWordPart (Char.ofNat n) = false := by decide +kernel
  have hc : c = Char.ofNat c.toNat := by simp
  rw [hc]
  refine hcodes _ ?_
  simp [isBlank] at h
  simp
  omega

/-- The mark begins at no place of the text, in letters of any case. -/
def LacksAnyCase (mark t : Text) : Prop := ∀ b ∈ t.tails, afterAnyCase? mark b = none

instance (mark t : Text) : Decidable (LacksAnyCase mark t) := List.decidableBAll _ _

/-- A mark that is there as it is written is there in letters of any case. -/
theorem isSome_of_after? {mark s rest : Text} (hmark : ∀ m ∈ mark, sameLetter m m = true)
    (h : after? mark s = some rest) : (afterAnyCase? mark s).isSome = true := by
  obtain rfl := after?_eq_some.1 h
  clear h
  induction mark with
  | nil => rfl
  | cons m mark ih =>
    rw [List.cons_append, afterAnyCase?, if_pos (hmark m List.mem_cons_self)]
    exact ih fun n hn => hmark n (List.mem_cons_of_mem m hn)

/-- A mark is there whatever follows. -/
theorem afterAnyCase?_append_right {mark b rest : Text} (h : afterAnyCase? mark b = some rest)
    (r : Text) : afterAnyCase? mark (b ++ r) = some (rest ++ r) := by
  induction mark generalizing b with
  | nil =>
    obtain rfl : b = rest := by simpa [afterAnyCase?] using h
    rfl
  | cons m mark ih =>
    cases b with
    | nil => simp [afterAnyCase?] at h
    | cons c b =>
      simp only [List.cons_append, afterAnyCase?] at h ⊢
      split at h
      · next hm => rw [if_pos hm, ih h]
      · simp at h

variable {s t : Text}

theorem LacksAnyCase.of_infix {mark : Text} (h : LacksAnyCase mark t) (hs : s <:+: t) :
    LacksAnyCase mark s := by
  obtain ⟨l, r, rfl⟩ := hs
  intro b hb
  obtain ⟨a, rfl⟩ := (List.mem_tails _ _).1 hb
  refine Option.eq_none_iff_forall_ne_some.2 fun rest hrest => ?_
  have hmem : b ++ r ∈ (l ++ (a ++ b) ++ r).tails :=
    (List.mem_tails _ _).2 ⟨l ++ a, by simp⟩
  have := h _ hmem
  rw [afterAnyCase?_append_right hrest r] at this
  exact Option.some_ne_none _ this

theorem lacksAnyCase_of_not_mem {m : Char} {mark : Text} (hm : m.isLower = false) (ht : m ∉ t) :
    LacksAnyCase (m :: mark) t := by
  intro b hb
  obtain ⟨a, rfl⟩ := (List.mem_tails _ _).1 hb
  cases b with
  | nil => rfl
  | cons c b => exact afterAnyCase?_cons_of_ne hm (fun h => ht (by simp [h])) mark b

theorem LacksAnyCase.lacks {mark : Text} (hmark : ∀ m ∈ mark, sameLetter m m = true)
    (h : LacksAnyCase mark t) : Lacks mark t := by
  rintro ⟨a, b, rfl⟩
  have hmem : mark ++ b ∈ (a ++ mark ++ b).tails := (List.mem_tails _ _).2 ⟨a, by simp⟩
  have hsome : (afterAnyCase? mark (mark ++ b)).isSome = true :=
    isSome_of_after? hmark (after?_eq_some.2 rfl)
  rw [h _ hmem] at hsome
  exact Bool.false_ne_true hsome

end WidgetCompiler.Text

namespace WidgetCompiler.Markup

open Text Sanitize

/-! ## Tags -/

/-- The text in a tag begins with a name, in letters of any case. -/
def named (name u : Text) : Bool :=
  match afterAnyCase? name u with
  | some rest => wordEnds rest
  | none => false

/-- The text in an end tag is a name, in letters of any case, with blanks behind it. -/
def closes (name u : Text) : Bool :=
  match afterAnyCase? ('/' :: name) u with
  | some gap => allBlank gap
  | none => false

/-- A tag with the given text in it. -/
def tagText (u : Text) : Text := '<' :: u ++ ['>']

/-- There is no angle bracket in the text. -/
def Bracketless (u : Text) : Prop := '<' ∉ u ∧ '>' ∉ u

instance (u : Text) : Decidable (Bracketless u) := inferInstanceAs (Decidable (_ ∧ _))

/-- A name goes on with none of the angle brackets. -/
def IsMark (name : Text) : Prop := ∀ m ∈ name, sameLetter m '<' = false ∧ sameLetter m '>' = false

instance (name : Text) : Decidable (IsMark name) := List.decidableBAll _ _

variable {name u : Text}

theorem afterAnyCase?_tag (hname : IsMark name) (u rest : Text) :
    afterAnyCase? ('<' :: name) (tagText u ++ rest)
      = (afterAnyCase? name u).map (· ++ '>' :: rest) := by
  have hopen : sameLetter '<' '<' = true := by decide
  have htext : tagText u ++ rest = '<' :: (u ++ '>' :: rest) := by simp [tagText]
  rw [htext, afterAnyCase?, if_pos hopen, afterAnyCase?_before fun m hm => (hname m hm).2]

theorem tagRest?_append {r : Text} (hr : '>' ∉ r) (rest : Text) :
    tagRest? (r ++ '>' :: rest) = if wordEnds r then some (r, rest) else none := by
  have hends : wordEnds (r ++ '>' :: rest) = wordEnds r := by
    cases r with
    | nil => rfl
    | cons c r => rfl
  have hcut : cutAt? (· == '>') (r ++ '>' :: rest) = some (r, rest) := by
    refine cutAt?_run (fun c hc => beq_eq_false_iff_ne.2 ?_) rfl
    rintro rfl
    exact hr hc
  rw [tagRest?, hends, hcut]

theorem tagOf_tag (hname : IsMark name) (hu : Bracketless u) (prev : Option Char) (rest : Text) :
    tagOf ('<' :: name) prev (tagText u ++ rest)
      = if named name u then some ((), rest) else none := by
  rw [tagOf, afterAnyCase?_tag hname, named]
  cases h : afterAnyCase? name u with
  | none => rfl
  | some r =>
    have hr : '>' ∉ r := fun hm => hu.2 ((suffix_of_afterAnyCase? h).subset hm)
    cases hends : wordEnds r <;> simp [tagRest?_append hr, hends]

theorem block_tag (hname : IsMark name) (hu : Bracketless u) (prev : Option Char) (rest : Text) :
    block name prev (tagText u ++ rest)
      = if named name u then
          (Pattern.find? (blockEnd name) none rest).map fun (body, _, rest) =>
            (((afterAnyCase? name u).getD [], body), rest)
        else none := by
  rw [block, afterAnyCase?_tag hname, named]
  cases h : afterAnyCase? name u with
  | none => rfl
  | some r =>
    have hr : '>' ∉ r := fun hm => hu.2 ((suffix_of_afterAnyCase? h).subset hm)
    cases hends : wordEnds r <;> simp [tagRest?_append hr, hends]

theorem blockEnd_tag (hname : IsMark name) (hu : Bracketless u) (prev : Option Char)
    (rest : Text) :
    blockEnd name prev (tagText u ++ rest) = if closes name u then some ((), rest) else none := by
  have hmark : IsMark ('/' :: name) := List.forall_mem_cons.2 ⟨by decide, hname⟩
  rw [blockEnd, afterAnyCase?_tag hmark, closes]
  cases h : afterAnyCase? ('/' :: name) u with
  | none => rfl
  | some gap =>
    by_cases hgap : allBlank gap = true
    · have hblanks : afterBlanks (gap ++ '>' :: rest) = '>' :: rest :=
        dropWhile_run (fun c hc => isBlank_of_mem hgap hc) (by simp; decide)
      simp [hblanks, hgap]
    · obtain ⟨c, hc, hblank⟩ := List.all_eq_false.1 (Bool.eq_false_iff.2 hgap)
      have hne : gap.dropWhile isBlank ≠ [] := fun hnil =>
        hblank (List.dropWhile_eq_nil_iff.1 hnil c hc)
      have hblanks : afterBlanks (gap ++ '>' :: rest) = gap.dropWhile isBlank ++ '>' :: rest := by
        rw [afterBlanks, List.dropWhile_append, if_neg (by simpa using hne)]
      obtain ⟨d, r, hd⟩ := List.exists_cons_of_ne_nil hne
      have hmem : d ∈ u := (suffix_of_afterAnyCase? h).subset
        ((List.dropWhile_suffix isBlank).subset (hd ▸ List.mem_cons_self))
      have hangle : d ≠ '>' := fun heq => hu.2 (heq ▸ hmem)
      simp [hblanks, hd, hangle, hgap]

theorem documentType_tag (hu : Bracketless u) (prev : Option Char) (rest : Text) :
    documentType prev (tagText u ++ rest)
      = if (afterAnyCase? "!doctype" u).isSome then some ((), rest) else none := by
  have hmark : IsMark "!doctype" := by decide
  have hafter : afterAnyCase? "<!doctype" (tagText u ++ rest)
      = (afterAnyCase? "!doctype" u).map (· ++ '>' :: rest) := afterAnyCase?_tag hmark u rest
  rw [documentType, hafter]
  cases h : afterAnyCase? "!doctype" u with
  | none => rfl
  | some r =>
    have hcut : cutAt? (· == '>') (r ++ '>' :: rest) = some (r, rest) := by
      refine cutAt?_run (fun c hc => beq_eq_false_iff_ne.2 ?_) rfl
      rintro rfl
      exact hu.2 ((suffix_of_afterAnyCase? h).subset hc)
    simp [hcut]

theorem instruction_tag (hu : Bracketless u) (prev : Option Char) (rest : Text) :
    instruction prev (tagText u ++ rest)
      = if u.head? = some '?' then some ((), rest) else none := by
  cases u with
  | nil => simp [instruction, tagText, after?]
  | cons c u =>
    by_cases hc : c = '?'
    · subst hc
      have hcut : cutAt? (· == '>') (u ++ '>' :: rest) = some (u, rest) := by
        refine cutAt?_run (fun c hc => beq_eq_false_iff_ne.2 ?_) rfl
        rintro rfl
        exact hu.2 (List.mem_cons_of_mem _ hc)
      simp [instruction, tagText, after?, hcut]
    · simp [instruction, tagText, after?, hc, Ne.symm hc]

/-! ## Pieces -/

/-- The names of the blocks that are taken out of the markup. -/
def blockNames : List Text := ["style", "script"]

/-- A piece of markup. -/
inductive Chunk
  | char (c : Char)
  | tag (inside : Text)
  | comment (body : Text)
  /-- A block of the given name, with the text in its start tag and in its end tag. -/
  | block (name opening body closing : Text)
deriving DecidableEq, Repr

namespace Chunk

/-- The piece as it is written. -/
def text : Chunk → Text
  | char c => [c]
  | tag u => tagText u
  | comment body => "<!--" ++ body ++ "-->"
  | block _ opening body closing => tagText opening ++ body ++ tagText closing

/-- The piece is a character or a tag. -/
def isBare : Chunk → Bool
  | char _ => true
  | tag _ => true
  | _ => false

def isComment : Chunk → Bool
  | comment _ => true
  | _ => false

/-- The piece is a block of the given name. -/
def isBlock (name : Text) : Chunk → Bool
  | block n _ _ _ => n == name
  | _ => false

/-- What is read in a block of the given name: the text in its start tag behind the name, and its
body. -/
def blockOf? (name : Text) : Chunk → Option (Text × Text)
  | block n opening body _ =>
    if n == name then some ((afterAnyCase? name opening).getD [], body) else none
  | _ => none

theorem isNone_blockOf? (name : Text) (x : Chunk) : (x.blockOf? name).isNone = !x.isBlock name := by
  cases x with
  | block n opening body closing => cases h : n == name <;> simp [blockOf?, isBlock, h]
  | _ => rfl

/-- The piece is complete, and nothing that `sanitize` looks for begins in it that does not end with
it. -/
def WellFormed : Chunk → Prop
  | char c => c ≠ '<'
  | tag u => Bracketless u ∧ afterAnyCase? "!--" u = none ∧ ∀ name ∈ blockNames, named name u = false
  | comment body => Lacks "-->" body
  | block name opening body closing =>
      name ∈ blockNames ∧ Bracketless opening ∧ named name opening = true
        ∧ (∀ mark ∈ (["<!--", "<style", '<' :: '/' :: name] : List Text), LacksAnyCase mark body)
        ∧ Bracketless closing ∧ closes name closing = true

instance : DecidablePred WellFormed
  | char _ => inferInstanceAs (Decidable (_ ≠ _))
  | tag _ => inferInstanceAs (Decidable (_ ∧ _))
  | comment _ => inferInstanceAs (Decidable (Lacks _ _))
  | block _ _ _ _ => inferInstanceAs (Decidable (_ ∧ _))

end Chunk

/-- Markup that is made of the pieces. -/
def textOf (xs : List Chunk) : Text := xs.flatMap (·.text)

/-! ## Patterns that begin with a `<` -/

section

variable {α : Type} {p : Pattern α} {name u body : Text}

/-- The pattern begins with a `<` and the name, in letters of any case. -/
def Opens (p : Pattern α) (name : Text) : Prop :=
  ∀ s, afterAnyCase? ('<' :: name) s = none → p none s = none

theorem Opens.of_ne (hp : Opens p name) {c : Char} (hc : c ≠ '<') (s : Text) :
    p none (c :: s) = none := by
  refine hp _ ?_
  have hsame : sameLetter '<' c = false :=
    Bool.eq_false_iff.2 fun h => hc (eq_of_sameLetter (by decide) h)
  rw [afterAnyCase?, hsame, if_neg Bool.false_ne_true]

theorem Opens.passes_of_not_mem (hp : Opens p name) {t : Text} (ht : '<' ∉ t) :
    Pattern.Passes p t := by
  rintro rest a b rfl hb
  obtain ⟨c, b, rfl⟩ := List.exists_cons_of_ne_nil hb
  refine hp.of_ne (fun hc => ht ?_) _
  simp [hc]

theorem Opens.passes_tag (hp : Opens p name) (hu : '<' ∉ u)
    (h : ∀ rest, p none (tagText u ++ rest) = none) : Pattern.Passes p (tagText u) := by
  have hrest : '<' ∉ u ++ ['>'] := by simpa using hu
  intro rest a b hab hb
  cases a with
  | nil =>
    obtain rfl : tagText u = b := hab
    exact h rest
  | cons c a =>
    obtain ⟨-, hab⟩ := List.cons.inj hab
    exact hp.passes_of_not_mem hrest rest a b hab hb

/-- In a body without the opening nothing begins, not even where a tag follows. -/
theorem Opens.passes_body (hp : Opens p name) (hname : IsMark name)
    (hbody : LacksAnyCase ('<' :: name) body) (rest : Text) :
    Pattern.PassesBefore p body ('<' :: rest) := by
  intro a b hab hb
  refine hp _ (Option.not_isSome_iff_eq_none.1 fun h => ?_)
  have hmem : b ∈ body.tails := (List.mem_tails _ _).2 ⟨a, hab.symm⟩
  have hsome : (afterAnyCase? ('<' :: name) b).isSome = true :=
    isSome_of_afterAnyCase?_append hb (fun m hm => (hname m hm).1) h
  rw [hbody b hmem] at hsome
  exact Bool.false_ne_true hsome

theorem opens_comment : Opens comment "!--" := by
  intro s hs
  cases h : after? "<!--" s with
  | none => rw [comment, h]
  | some rest =>
    have hsome : (afterAnyCase? ('<' :: "!--") s).isSome = true := isSome_of_after? (by decide) h
    rw [hs] at hsome
    exact absurd hsome Bool.false_ne_true

theorem opens_instruction : Opens instruction "?" := by
  intro s hs
  cases h : after? "<?" s with
  | none => rw [instruction, h]
  | some rest =>
    have hsome : (afterAnyCase? ('<' :: "?") s).isSome = true := isSome_of_after? (by decide) h
    rw [hs] at hsome
    exact absurd hsome Bool.false_ne_true

theorem opens_block (name : Text) : Opens (block name) name := by
  intro s hs
  rw [block, hs]

theorem opens_blockEnd (name : Text) : Opens (blockEnd name) ('/' :: name) := by
  intro s hs
  rw [blockEnd, hs]

end

/-! ## Complete pieces -/

/-- A comment is read to its end. -/
theorem reads_comment {body : Text} (h : Lacks "-->" body) :
    Pattern.ReadsAs comment (Chunk.comment body).text () := by
  refine ⟨by simp [Chunk.text], fun rest => ?_⟩
  have happart : Apart "-->" body "-->" := by
    rintro p q hm hp hq - hprefix
    obtain ⟨c, p, rfl⟩ := List.exists_cons_of_ne_nil hp
    have hsuffix : q <:+ ("->" : Text) := ⟨p, (List.cons.inj hm).2.symm⟩
    have hnone : ∀ q ∈ ("->" : Text).tails, q ≠ [] → ¬ q <+: ("-->" : Text) := by decide
    exact hnone q ((List.mem_tails q _).2 hsuffix) hq hprefix
  have hcut : cut? "-->" (body ++ ("-->" ++ rest)) = some (body, rest) := cut?_of_lacks h happart rest
  have hafter : after? "<!--" ((Chunk.comment body).text ++ rest) = some (body ++ ("-->" ++ rest)) :=
    after?_eq_some.2 (by simp [Chunk.text])
  rw [comment, hafter]
  simp only [hcut]
  rfl

/-- A block is read to its end. -/
theorem reads_block {name opening body closing : Text} (hname : IsMark name)
    (h : (Chunk.block name opening body closing).WellFormed) :
    Pattern.ReadsAs (block name) (Chunk.block name opening body closing).text
      ((afterAnyCase? name opening).getD [], body) := by
  obtain ⟨-, hopening, hnamed, hbody, hclosing, hcloses⟩ := h
  refine ⟨by simp [Chunk.text, tagText], fun rest => ?_⟩
  have hmark : IsMark ('/' :: name) := List.forall_mem_cons.2 ⟨by decide, hname⟩
  have hpasses : Pattern.PassesBefore (blockEnd name) body (tagText closing ++ rest) :=
    (opens_blockEnd name).passes_body hmark (hbody _ (by simp)) _
  have hend : Pattern.find? (blockEnd name) none (body ++ (tagText closing ++ rest))
      = some (body, (), rest) := by
    have hforward : (blockEnd name).Forward := fun _ _ _ => rfl
    obtain ⟨prev, hfind⟩ := hforward.find?_append none hpasses
    have hmatch : blockEnd name prev (tagText closing ++ rest) = some ((), rest) := by
      rw [blockEnd_tag hname hclosing, if_pos hcloses]
    rw [hfind, Pattern.find?_of_match (by simp [tagText]) hmatch]
    simp
  rw [Chunk.text, List.append_assoc, List.append_assoc, block_tag hname hopening, if_pos hnamed, hend]
  rfl

end WidgetCompiler.Markup
