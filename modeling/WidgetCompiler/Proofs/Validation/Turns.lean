import WidgetCompiler.Proofs.Php.Turns
import WidgetCompiler.Proofs.Validation.Code
import WidgetCompiler.Proofs.Validation.RenderModes

/-!
# Turns that no check minds

Each check reads the turns of markup and statements in its own way: the marks place by place, the
literals state by state, the modes line by line.  For each of them there is one induction over the
turns, and its steps use of markup only that it is a `Fragment`, and of statements only that they
are `Printing`.
-/

namespace WidgetCompiler.Validation

open Text Php

/-- Whether a character can stand in a fragment without looking like code. -/
def isFragmentChar (c : Char) : Bool := isAscii c && decide (c ∉ ("?[\r" : Text))

/-- Markup in which nothing of a page begins, and nothing that looks like code. -/
structure Fragment (t : Text) : Prop where
  chars : ∀ c ∈ t, isFragmentChar c = true
  page : ∀ mark ∈ pageMarks, Lacks mark (lowerAscii t)

/-- A statement that may follow a `<?php` directly behind a `?>`. -/
structure Printing (code : Text) : Prop where
  piece : Piece code
  keyword : ∃ word ∈ transitionKeywords, ∃ c r, code = word ++ c :: r ∧ isWordPart c = false

section

variable {s t l x code : Text}

namespace Fragment

theorem isAscii (h : Fragment t) : ∀ c ∈ t, isAscii c = true :=
  fun c hc => (Bool.and_eq_true_iff.1 (h.chars c hc)).1

theorem not_mem {c : Char} (h : Fragment t) (hc : c ∈ ("?[\r" : Text)) : c ∉ t :=
  fun hm => of_decide_eq_true (Bool.and_eq_true_iff.1 (h.chars c hm)).2 hc

theorem of_infix (h : Fragment t) (hs : s <:+: t) : Fragment s where
  chars c hc := h.chars c (hs.subset hc)
  page mark hmark := by
    obtain ⟨a, b, rfl⟩ := hs
    refine Lacks.of_infix (h.page mark hmark) ⟨lowerAscii a, lowerAscii b, ?_⟩
    rw [lowerAscii_append, lowerAscii_append]

theorem append (hs : Fragment s) (ht : Fragment t)
    (h : ∀ mark ∈ pageMarks, Apart mark (lowerAscii s) (lowerAscii t)) : Fragment (s ++ t) where
  chars c hc := (List.mem_append.1 hc).elim (hs.chars c) (ht.chars c)
  page mark hmark := by
    rw [lowerAscii_append]
    exact (hs.page mark hmark).append (ht.page mark hmark) (h mark hmark)

theorem lacks_instruction (h : Fragment t) : Lacks "<?" t :=
  lacks_of_not_mem (c := '?') (by decide) (h.not_mem (by decide))

/-- A fragment has no `?>`. -/
theorem not_closeTag {gap : Text} (h : Fragment (t ++ closeTag ++ gap)) : False :=
  h.not_mem (by decide : '?' ∈ _) (by simp [closeTag])

/-- Line ends and spaces. -/
theorem of_spaces (h : ∀ c ∈ t, c = '\n' ∨ c = ' ') : Fragment t where
  chars c hc := by rcases h c hc with rfl | rfl <;> decide
  page mark hmark := by
    have hmark' : ∀ mark ∈ pageMarks, '<' ∈ mark := by decide
    refine lacks_of_not_mem (hmark' mark hmark) fun hm => ?_
    obtain ⟨c, hc, hlower⟩ := List.mem_map.1 hm
    rcases h c hc with rfl | rfl
    · exact absurd hlower (by decide)
    · exact absurd hlower (by decide)

theorem append_spaces (hs : Fragment s) (h : ∀ c ∈ t, c = '\n' ∨ c = ' ') : Fragment (s ++ t) := by
  refine hs.append (of_spaces h) fun mark hmark => apart_of_head fun c hc => ?_
  obtain ⟨d, hd, rfl⟩ : ∃ d ∈ t, d.toLower = c := by
    rw [lowerAscii, List.head?_map] at hc
    obtain ⟨d, hd, hdc⟩ := Option.map_eq_some_iff.1 hc
    exact ⟨d, List.mem_of_mem_head? hd, hdc⟩
  have htail : ∀ mark ∈ pageMarks, ('\n'.toLower ∉ mark.tail) ∧ ' '.toLower ∉ mark.tail := by decide
  rcases h d hd with rfl | rfl
  · exact (htail mark hmark).1
  · exact (htail mark hmark).2

theorem newline_cons (h : Fragment t) : Fragment ('\n' :: t) := by
  refine Fragment.append (s := ['\n']) (of_spaces (by simp)) h fun mark hmark => apart_of_last ?_
  have hlast : ∀ mark ∈ pageMarks, ∀ c ∈ (lowerAscii ['\n']).getLast?, c ∉ mark.dropLast := by decide
  exact hlast mark hmark

end Fragment

/-- Line ends and indentation make no difference. -/
theorem spaced_fragment {indent : Text} (h : ∀ c ∈ indent, c = ' ') : Spaced indent Fragment where
  nil := Fragment.of_spaces (by simp)
  first h := h.newline_cons
  last := by
    intro t ht lineEnd hlineEnd
    refine (ht.append_spaces fun c hc => ?_).append_spaces fun c hc => .inr (h c hc)
    rcases hlineEnd with rfl | rfl
    · simp at hc
    · exact .inl (by simpa using hc)

/-! ## Marks -/

/-- Within a fragment before a delimiter, every place is harmless. -/
theorem Fragment.harmless (h : Fragment t) {a b : Text} (hab : t = a ++ b) (hb : b ≠ [])
    (left rest : Text) : Harmless left (b ++ (openTag ++ rest)) := by
  obtain ⟨c, b, rfl⟩ := List.exists_cons_of_ne_nil hb
  have hmem : ∀ d ∈ c :: b, d ∈ t := fun d hd => by rw [hab]; exact List.mem_append_right _ hd
  have hquestion : ∀ {r}, b ++ (openTag ++ rest) ≠ '?' :: r := by
    intro r hr
    cases b with
    | nil => simp [openTag] at hr
    | cons d b =>
      obtain ⟨rfl, -⟩ := List.cons.inj hr
      exact h.not_mem (by decide) (hmem '?' (by simp))
  refine ⟨fun mark hmark => ?_, fun s hs => ?_, fun s hs => ?_, fun s hs => ?_, fun s hs => ?_,
    fun s hs => ?_⟩
  · refine Option.not_isSome_iff_eq_none.1 fun hsome => ?_
    have htail : ∀ mark ∈ pageMarks, ∀ m ∈ mark.tail, sameLetter m '<' = false := by decide
    have hcut : (afterAnyCase? mark ((c :: b) ++ '<' :: (['?', 'p', 'h', 'p'] ++ rest))).isSome
        = true := hsome
    have := isSome_of_afterAnyCase?_append (by simp) (htail mark hmark) hcut
    rw [afterAnyCase?_eq_none (fun d hd => h.isAscii d (hmem d hd))] at this
    · simp at this
    · exact (h.of_infix ⟨a, [], by rw [hab, List.append_nil]⟩).page mark hmark
  · exact absurd (List.cons.inj hs).2 hquestion
  · exact absurd (List.cons.inj hs).2 hquestion
  · -- the fragment has no bracket, and the delimiter behind it is no part of the mark
    rcases List.append_eq_append_iff.1 (hs : (c :: b) ++ (openTag ++ rest) = _) with
      ⟨r, hmark, hr⟩ | ⟨r, hcb, -⟩
    · have hbracket : '[' ∈ (c :: b) ++ r := by
        rw [← hmark]
        decide
      cases r with
      | nil => exact absurd (hmem '[' (by simpa using hbracket)) (h.not_mem (by decide))
      | cons d r =>
        obtain rfl : '<' = d := (List.cons.inj hr).1
        have : '<' ∈ ("$settings[" : Text) := by rw [hmark]; simp
        exact absurd this (by decide)
    · have : '[' ∈ c :: b := by rw [hcb]; simp
      exact absurd (hmem '[' this) (h.not_mem (by decide))
  · have hc : c = '[' := (List.cons.inj hs).1
    exact absurd (hmem c (by simp)) (hc ▸ h.not_mem (by decide))
  · have hc : c = '\r' := (List.cons.inj hs).1
    exact absurd (hmem c (by simp)) (hc ▸ h.not_mem (by decide))

/-- A delimiter is harmless if it does not follow another one at once, or if a keyword follows. -/
theorem harmless_openTag {left right : Text}
    (h : closeTag <:+ trimEnd left →
      ∃ word ∈ transitionKeywords, ∃ c r, right = ' ' :: (word ++ c :: r) ∧ isWordPart c = false) :
    Harmless left (openTag ++ right) := by
  refine ⟨fun mark hmark => ?_, fun s hs hclose => ?_, fun s hs => ?_, fun s hs => ?_,
    fun s hs => ?_, fun s hs => ?_⟩
  · have htail : ∀ mark ∈ pageMarks, ∀ m ∈ mark.tail, sameLetter m '?' = false := by decide
    have hnone : ∀ mark ∈ pageMarks, (afterAnyCase? mark ['<']).isSome = false := by decide
    refine Option.not_isSome_iff_eq_none.1 fun hsome => ?_
    have hcut : (afterAnyCase? mark (['<'] ++ '?' :: (['p', 'h', 'p'] ++ right))).isSome
        = true := hsome
    have := isSome_of_afterAnyCase?_append (by simp) (htail mark hmark) hcut
    exact Bool.false_ne_true ((hnone mark hmark).symm.trans this)
  · obtain rfl := List.append_cancel_left hs
    exact h hclose
  · exact absurd (List.cons.inj (List.cons.inj (List.cons.inj hs).2).2).1 (by decide)
  · exact absurd (List.cons.inj hs).1 (by decide)
  · exact absurd (List.cons.inj hs).1 (by decide)
  · exact absurd (List.cons.inj hs).1 (by decide)

theorem everywhere_harmless (h : ∀ c ∈ t, c ∉ harmfulMarks) : Everywhere Harmless t :=
  everywhere_of_forall_mem fun c hc => harmless_of_not_mem (h c hc)

/-- One turn up to its delimiter, and what follows that. -/
theorem everywhere_turn (ht : Fragment t)
    (hopen : ∀ front rest, Harmless (front ++ (closeTag ++ t)) (openTag ++ (s ++ rest)))
    (hs : Everywhere Harmless s) : Everywhere Harmless (closeTag ++ (t ++ (openTag ++ s))) := by
  have hclose : Everywhere Harmless closeTag := everywhere_harmless (by decide)
  have htag : Along Harmless (closeTag ++ t) (openTag ++ s) := by
    refine Along.cons (fun front rest => ?_) (Everywhere.along ?_ _)
    · exact hopen front rest
    · have hname : Everywhere Harmless ("?php" : Text) := everywhere_harmless (by decide)
      exact hname.append hs
  refine Along.append (hclose.along []) (Along.append_of (fun a b hab hb front rest => ?_) htag)
  have := ht.harmless hab hb (front ++ ([] ++ closeTag) ++ a) (s ++ rest)
  simpa using this

/-- Behind a `?>` all places of turns are harmless. -/
theorem everywhere_turns (hx : Turns Fragment Printing x) : Everywhere Harmless (closeTag ++ x) := by
  have hkeyword {code : Text} (next : Text) {c : Char} (hcode : Printing code) (left rest : Text) :
      Harmless left (openTag ++ (' ' :: code ++ c :: next ++ rest)) := by
    refine harmless_openTag fun _ => ?_
    obtain ⟨word, hword, d, r, rfl, hd⟩ := hcode.keyword
    exact ⟨word, hword, d, r ++ c :: next ++ rest, by simp, hd⟩
  have hspace : Everywhere Harmless [' '] := everywhere_harmless (by decide)
  have hnewline : Everywhere Harmless ['\n'] := everywhere_harmless (by decide)
  induction hx with
  | @enter t ht hblank =>
    refine everywhere_turn ht (fun front rest => harmless_openTag fun hends => ?_) hnewline
    -- the `?>` before the markup cannot be the end of a text that ends in the markup
    rw [← List.append_assoc, trimEnd_append_of_not_allBlank hblank] at hends
    have hlast : ∀ c ∈ (front ++ closeTag).getLast?, c ≠ '?' := by
      intro c hc
      obtain rfl : '>' = c := by simpa [closeTag] using hc
      decide
    have hsuffix := Writer.closeTag_suffix_of_append hlast (trimEnd_ne_nil hblank) hends
    have hprefix : trimEnd t <+: t := ⟨_, trimEnd_append t⟩
    exact absurd ( hprefix.subset (hsuffix.subset (by decide))) (ht.not_mem (by decide : '?' ∈ _))
  | @stay t code ht hcode =>
    have hplaces : Everywhere Harmless code := hcode.piece.places.mono fun _ _ h => h.toHarmless
    have hline : Everywhere Harmless (' ' :: code ++ ['\n']) :=
      (hspace.append hplaces).append hnewline
    exact everywhere_turn ht (fun front rest => hkeyword [] hcode _ rest) hline
  | @turn t code rest ht hcode _ ih =>
    have hplaces : Everywhere Harmless code := hcode.piece.places.mono fun _ _ h => h.toHarmless
    have hline : Everywhere Harmless (' ' :: code ++ [' '] ++ (closeTag ++ rest)) :=
      ((hspace.append hplaces).append hspace).append ih
    have := everywhere_turn ht (s := ' ' :: code ++ ' ' :: (closeTag ++ rest))
      (fun front rest' => hkeyword _ hcode _ rest') (by simpa using hline)
    simpa using this
  | lost ht _ => exact ht.not_closeTag.elim

/-! ## Literals -/

/-- What is closed from code is so from markup behind turns of markup in ASCII without instructions
and of statements on one line.  Where markup ends in a `?>` of its own, code is not entered, and what
follows has to be closed from markup. -/
theorem Closed.turns {shown run : Text → Prop}
    (hshown : ∀ {t}, shown t → (∀ c ∈ t, isAscii c = true) ∧ Lacks "<?" t)
    (hrun : ∀ {code}, run code → Crosses code) (hx : Turns shown run x) (h : Closed .code s)
    (hlost : (∃ t gap, shown (t ++ Php.closeTag ++ gap)) → Closed .markup s) : Closed .markup (x ++ s) := by
  have hmarkup {t s : Text} (ht : shown t) (h : Closed .code s) :
      Closed .markup (t ++ (Php.openTag ++ s)) :=
    Closed.markup (hshown ht).1 (hshown ht).2 (by simp [Php.openTag]) (Closed.openTag h)
  have hspace {s : Text} (h : Closed .code s) : Closed .code (' ' :: s) :=
    (crosses_of_isPlainInCode (t := [' ']) rfl).closed h
  induction hx with
  | enter ht _ =>
    have := hmarkup ht (Closed.newline rfl h)
    simpa using this
  | stay ht hcode =>
    have := hmarkup ht (hspace ((hrun hcode).closed (Closed.newline rfl h)))
    simpa using this
  | turn ht hcode _ ih =>
    have := hmarkup ht (hspace ((hrun hcode).closed (hspace (Closed.closeTag ih))))
    simpa using this
  | @lost t gap ht _ =>
    have hkept : trimEnd t <+: t ++ Php.closeTag ++ gap := by
      rw [List.append_assoc]
      exact List.IsPrefix.trans ⟨_, trimEnd_append t⟩ (List.prefix_append _ _)
    obtain ⟨hascii, hlacks⟩ := hshown ht
    have := Closed.markup (fun c hc => hascii c (hkept.subset hc)) (hlacks.of_infix hkept.isInfix)
      (by simp) (@Closed.newline .markup _ rfl (hlost ⟨t, gap, ht⟩))
    simpa using this

/-! ## Modes -/

theorem lacks_closeTag_of_places (h : Everywhere InCode t) : Lacks closeTag t := by
  rintro ⟨a, b, hab⟩
  have hplace := h.at_place (a := a) (b := closeTag ++ b) (by rw [← hab]; simp) (by simp [closeTag])
  exact hplace.close b rfl

/-- What is orderly from code is so from markup behind turns. -/
theorem Orderly.turns {indent : Nat} (hx : Turns Fragment Printing x) (h : Orderly indent true s)
    (hl : Showing l) : Orderly indent false (l ++ (x ++ s)) := by
  have hmarkup {t s : Text} (ht : Fragment t)
      (h : ∀ l, Showing l → Orderly indent false (l ++ s)) {l : Text} (hl : Showing l) :
      Orderly indent false (l ++ (t ++ s)) := Orderly.markup (ht.not_mem (by decide)) h hl
  induction hx generalizing l with
  | enter ht _ =>
    have := hmarkup ht (fun l hl => Orderly.enter (show '\n' ∉ ([] : Text) by simp) (by decide) h hl) hl
    simpa using this
  | @stay t code ht hcode =>
    have hclose : Lacks closeTag (' ' :: code) :=
      Lacks.append (s := [' ']) (by decide) (lacks_closeTag_of_places hcode.piece.places)
        (apart_of_last (by decide))
    have hline : '\n' ∉ ' ' :: code := by simpa using hcode.piece.crosses.line
    have := hmarkup ht (fun l hl => Orderly.enter hline hclose h hl) hl
    simpa using this
  | turn ht hcode _ ih =>
    have := hmarkup ht (fun l hl => Orderly.statement hcode.piece.crosses.line (fun l hl => ih hl) hl) hl
    simpa using this
  | lost ht _ => exact ht.not_closeTag.elim

end

end WidgetCompiler.Validation
