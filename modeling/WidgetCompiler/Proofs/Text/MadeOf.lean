import WidgetCompiler.Proofs.Text.AsciiCase
import WidgetCompiler.Proofs.Text.Blank
import WidgetCompiler.Proofs.Text.Pieces
import WidgetCompiler.Proofs.Text.Plain
import WidgetCompiler.Proofs.Text.Replace

/-!
# Texts made of a kind of characters

Most of what is done to a text only moves its characters: it is trimmed, cut, taken apart and put
together again, with a few fixed characters in between.  `MadeOf p t` says that all characters of a
text are of a kind, and each of these steps keeps it, whatever the kind, as long as the fixed
characters are of it too.

A text in ASCII (`IsAscii`) is one case, plain text is another.
-/

namespace WidgetCompiler.Text

/-- All characters of the text are of a kind. -/
def MadeOf (p : Char → Bool) (t : Text) : Prop := ∀ c ∈ t, p c = true

instance (p : Char → Bool) (t : Text) : Decidable (MadeOf p t) := List.decidableBAll _ t

/-- A text in ASCII. -/
abbrev IsAscii (t : Text) : Prop := MadeOf isAscii t

variable {p : Char → Bool} {s t u sep old new : Text} {c : Char} {ts : List Text}

namespace MadeOf

theorem nil : MadeOf p [] := fun _ hc => absurd hc List.not_mem_nil

theorem append (hs : MadeOf p s) (ht : MadeOf p t) : MadeOf p (s ++ t) :=
  fun c hc => (List.mem_append.1 hc).elim (hs c) (ht c)

theorem cons (hc : p c = true) (ht : MadeOf p t) : MadeOf p (c :: t) :=
  List.forall_mem_cons.2 ⟨hc, ht⟩

theorem of_subset (ht : MadeOf p t) (h : s ⊆ t) : MadeOf p s := fun c hc => ht c (h hc)

theorem of_infix (ht : MadeOf p t) (h : s <:+: t) : MadeOf p s := ht.of_subset h.subset

theorem left (h : MadeOf p (s ++ t)) : MadeOf p s := h.of_subset (List.subset_append_left s t)

theorem right (h : MadeOf p (s ++ t)) : MadeOf p t := h.of_subset (List.subset_append_right s t)

theorem trim (ht : MadeOf p t) : MadeOf p (trim t) := ht.of_infix ( trim_infix t)

theorem trimEnd (ht : MadeOf p t) : MadeOf p (trimEnd t) :=
  ht.of_infix (show Text.trimEnd t <+: t from ⟨_, trimEnd_append t⟩).isInfix

theorem splitOn {q : Char → Bool} (ht : MadeOf p t) (h : s ∈ splitOn q t) : MadeOf p s :=
  fun _ hc => ht _ (mem_of_mem_splitOn h hc).1

theorem dropReturn (ht : MadeOf p t) : MadeOf p (dropReturn t) := by
  rw [Text.dropReturn]
  split
  · exact ht.of_subset (List.dropLast_subset t)
  · exact ht

theorem lines (ht : MadeOf p t) (h : s ∈ lines t) : MadeOf p s := by
  rcases List.mem_append.1 h with h | h
  · obtain ⟨piece, hpiece, rfl⟩ := List.mem_map.1 h
    exact (ht.splitOn (List.dropLast_subset _ hpiece)).dropReturn
  · split at h
    · exact absurd h List.not_mem_nil
    · obtain rfl := List.mem_singleton.1 h
      cases hlast : (Text.splitOn (· == '\n') t).getLast? with
      | none => exact nil
      | some last => exact ht.splitOn (List.mem_of_getLast? hlast)

theorem join (hsep : MadeOf p sep) (h : ∀ t ∈ ts, MadeOf p t) : MadeOf p (join sep ts) := by
  intro c hc
  rcases mem_join hc with hc | ⟨t, ht, hc⟩
  · exact hsep c hc
  · exact h t ht c hc

theorem joinLines (hline : p '\n' = true) (h : ∀ t ∈ ts, MadeOf p t) : MadeOf p (joinLines ts) := by
  intro c hc
  rcases mem_joinLines hc with rfl | ⟨t, ht, hc⟩
  · exact hline
  · exact h t ht c hc

theorem collapseBlanks (hspace : p ' ' = true) (ht : MadeOf p t) : MadeOf p (collapseBlanks t) := by
  intro c hc
  rcases mem_collapseBlanks hc with ⟨hc, -⟩ | rfl
  · exact ht c hc
  · exact hspace

theorem replace (hnew : MadeOf p new) (ht : MadeOf p t) : MadeOf p (replace old new t) :=
  fun c hc => (mem_replace hc).elim (hnew c) (ht c)

theorem flatMap {f : Char → Text} (ht : MadeOf p t) (h : ∀ c ∈ t, p c = true → MadeOf p (f c)) :
    MadeOf p (t.flatMap f) := by
  intro c hc
  obtain ⟨d, hd, hc⟩ := List.mem_flatMap.1 hc
  exact h d hd (ht d hd) c hc

theorem getD {value : Option Text} (h : ∀ v ∈ value, MadeOf p v) (ht : MadeOf p t) :
    MadeOf p (value.getD t) := by
  cases value with
  | none => exact ht
  | some v => exact h v rfl

end MadeOf

/-! ## Words -/

/-- Words and spaces are made of the kind of characters. -/
structure HoldsWords (p : Char → Bool) : Prop where
  word : ∀ {c}, (c.isAlphanum || c == '_') = true → p c = true
  space : p ' ' = true

namespace HoldsWords

theorem of_isWord (hp : HoldsWords p) (h : IsWord t) : MadeOf p t := fun c hc => hp.word (h c hc)

/-- Words with spaces between them. -/
theorem of_words (hp : HoldsWords p) (h : ∀ c ∈ t, (c.isAlphanum || c == '_') = true ∨ c = ' ') :
    MadeOf p t := by
  intro c hc
  rcases h c hc with h | rfl
  · exact hp.word h
  · exact hp.space

end HoldsWords

theorem holdsWords_isPlainChar : HoldsWords isPlainChar where
  word {c} h := (IsWord.isPlain (t := [c]) (by simpa [IsWord] using h)) c List.mem_cons_self
  space := by decide

theorem holdsWords_isAscii : HoldsWords isAscii where
  word h := isAscii_of_isPlainChar (holdsWords_isPlainChar.word h)
  space := by decide

/-! ## Texts in ASCII -/

theorem isAscii_toLower (h : isAscii c = true) : isAscii c.toLower = true := by
  cases hc : c.isUpper with
  | false => rwa [toLower_of_not_isUpper hc]
  | true =>
    have hnat := toNat_toLower_of_isUpper hc
    have hrange := isUpper_iff.1 hc
    refine decide_eq_true ?_
    omega

theorem IsAscii.lowerAscii (ht : IsAscii t) : IsAscii (lowerAscii t) := by
  intro c hc
  obtain ⟨d, hd, rfl⟩ := List.mem_map.1 hc
  exact isAscii_toLower (ht d hd)

theorem IsAscii.lowercase (ht : IsAscii t) : IsAscii (lowercase t) := by
  rw [lowercase_of_isAscii ht]
  exact ht.lowerAscii

theorem IsWord.isAscii (h : IsWord t) : IsAscii t := holdsWords_isAscii.of_isWord h

end WidgetCompiler.Text
