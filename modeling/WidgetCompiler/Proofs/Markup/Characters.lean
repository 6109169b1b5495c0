import WidgetCompiler.Markup.Sanitize
import WidgetCompiler.Proofs.Text.AnyCase
import WidgetCompiler.Proofs.Text.MadeOf
import WidgetCompiler.Proofs.Text.Run

/-!
# What sanitized markup is made of

A pattern that reads from a text reads some of its characters and leaves others (`Pattern.Keeps`), so
what is left of a text without the matches is made of its characters, and so is what was read in
them.  The patterns that `sanitize` takes out are all of this kind; the fragment, the style sheets
and the scripts of markup are made of the characters of the markup, and of those of the reference
that stands for a `<` (`madeOf_sanitize`).
-/

namespace WidgetCompiler.Text

section

variable {q : Char → Bool} {s a b mark rest before : Text}

namespace MadeOf

theorem after? (hs : MadeOf q s) (h : after? mark s = some rest) : MadeOf q rest := by
  rw [after?_eq_some.1 h] at hs
  exact hs.right

theorem afterAnyCase? (hs : MadeOf q s) (h : afterAnyCase? mark s = some rest) : MadeOf q rest :=
  hs.of_subset (suffix_of_afterAnyCase? h).subset

theorem afterBlanks (hs : MadeOf q s) : MadeOf q (afterBlanks s) :=
  hs.of_subset (List.dropWhile_suffix isBlank).subset

theorem cut? (hs : MadeOf q s) (h : cut? mark s = some (before, rest)) :
    MadeOf q before ∧ MadeOf q rest := by
  rw [cut?_eq_some h] at hs
  exact ⟨hs.left.left, hs.right⟩

theorem cutAt? {pick : Char → Bool} (hs : MadeOf q s) (h : cutAt? pick s = some (a, b)) :
    MadeOf q a ∧ MadeOf q b := by
  obtain ⟨c, -, rfl, -⟩ := cutAt?_eq_some h
  exact ⟨hs.left, (List.forall_mem_cons.1 hs.right).2⟩

end MadeOf

end

/-! ## Patterns -/

namespace Pattern

section

variable {α : Type} {q : Char → Bool} {Q : α → Prop} {p : Pattern α} {s before rest : Text} {a : α}
variable {prev : Option Char}

/-- What the pattern reads from a text of a kind has a property, and what it leaves is of that
kind. -/
def Keeps (q : Char → Bool) (Q : α → Prop) (p : Pattern α) : Prop :=
  ∀ prev s a rest, MadeOf q s → p prev s = some (a, rest) → Q a ∧ MadeOf q rest

theorem Keeps.find? (hp : Keeps q Q p) (hs : MadeOf q s)
    (h : find? p prev s = some (before, a, rest)) : MadeOf q before ∧ Q a ∧ MadeOf q rest := by
  obtain ⟨here, prev', hhere, rfl⟩ := find?_eq_some h
  exact ⟨hs.left, hp _ _ _ _ hs.right hhere⟩

/-- A text without the matches is of the kind, and what was read in them has the property. -/
theorem Keeps.extract (hp : Keeps q Q p) (hs : MadeOf q s) :
    MadeOf q (extract p s).1 ∧ ∀ a ∈ (extract p s).2, Q a := by
  have along (prev : Option Char) (s : Text) (hs : MadeOf q s) :
      MadeOf q (extractFrom p prev s).1 ∧ ∀ a ∈ (extractFrom p prev s).2, Q a := by
    fun_induction extractFrom p prev s with
    | case1 => exact ⟨hs, by simp⟩
    | case2 prev c s a rest hmatch _ kept found heq ih =>
      obtain ⟨ha, hrest⟩ := hp _ _ _ _ hs hmatch
      obtain ⟨hkept, hfound⟩ := ih hrest
      rw [heq] at hkept hfound
      exact ⟨hkept, List.forall_mem_cons.2 ⟨ha, hfound⟩⟩
    | case3 => exact ⟨hs, by simp⟩
    | case4 prev c s _ kept found heq ih =>
      obtain ⟨hc, hrest⟩ := List.forall_mem_cons.1 hs
      obtain ⟨hkept, hfound⟩ := ih hrest
      rw [heq] at hkept hfound
      exact ⟨hkept.cons hc, hfound⟩
  exact along none s hs

end

end Pattern

end WidgetCompiler.Text

namespace WidgetCompiler.Markup

open Text

section

variable {q : Char → Bool} {s rest attributes markup : Text}

namespace Sanitize

/-- A pattern that passes over a mark, and then over what is cut off, keeps the kind. -/
theorem keeps_of_cut {p : Pattern Unit} {after : Text → Option Text}
    {cut : Text → Option (Text × Text)} (hp : ∀ prev s, p prev s = match after s with
      | some s => (cut s).map fun (_, rest) => ((), rest)
      | none => none)
    (hafter : ∀ s r, MadeOf q s → after s = some r → MadeOf q r)
    (hcut : ∀ s front r, MadeOf q s → cut s = some (front, r) → MadeOf q r) :
    Pattern.Keeps q (fun _ => True) p := by
  intro prev s a rest hs h
  rw [hp] at h
  split at h
  · next r hr =>
    obtain ⟨⟨front, rest⟩, hrest, he⟩ := Option.map_eq_some_iff.1 h
    obtain rfl := (Prod.mk.inj he).2
    exact ⟨trivial, hcut _ _ _ (hafter _ _ hs hr) hrest⟩
  · simp at h

theorem keeps_comment : Pattern.Keeps q (fun _ => True) comment :=
  keeps_of_cut (fun _ _ => rfl) (fun _ _ hs h => hs.after? h) fun _ _ _ hs h => (hs.cut? h).2

theorem keeps_instruction : Pattern.Keeps q (fun _ => True) instruction :=
  keeps_of_cut (fun _ _ => rfl) (fun _ _ hs h => hs.after? h) fun _ _ _ hs h => (hs.cutAt? h).2

theorem keeps_documentType : Pattern.Keeps q (fun _ => True) documentType :=
  keeps_of_cut (fun _ _ => rfl) (fun _ _ hs h => hs.afterAnyCase? h)
    fun _ _ _ hs h => (hs.cutAt? h).2

theorem madeOf_tagRest? (hs : MadeOf q s) (h : tagRest? s = some (attributes, rest)) :
    MadeOf q attributes ∧ MadeOf q rest := by
  unfold tagRest? at h
  split at h
  · exact hs.cutAt? h
  · simp at h

theorem keeps_blockEnd (name : Text) : Pattern.Keeps q (fun _ => True) (blockEnd name) := by
  intro prev s a rest hs h
  unfold blockEnd at h
  split at h
  · next hafter =>
    split at h
    · next hrest =>
      obtain rfl := (Prod.mk.inj (Option.some.inj h)).2
      have := (hs.afterAnyCase? hafter).afterBlanks
      rw [hrest] at this
      exact ⟨trivial, (List.forall_mem_cons.1 this).2⟩
    · simp at h
  · simp at h

/-- What stands in a block is of the kind of the text. -/
theorem keeps_block (name : Text) : Pattern.Keeps q (fun read => MadeOf q read.2) (block name) := by
  intro prev s a rest hs h
  unfold block at h
  split at h
  · next hafter =>
    split at h
    · next hrest =>
      obtain ⟨⟨body, read, rest⟩, hfind, he⟩ := Option.map_eq_some_iff.1 h
      obtain ⟨rfl, rfl⟩ := Prod.mk.inj he
      have htag := madeOf_tagRest? (hs.afterAnyCase? hafter) hrest
      obtain ⟨hbody, -, hrest⟩ := (keeps_blockEnd name).find? htag.2 hfind
      exact ⟨hbody, hrest⟩
    · simp at h
  · simp at h

theorem keeps_tagOf (start : Text) : Pattern.Keeps q (fun _ => True) (tagOf start) :=
  keeps_of_cut (fun _ _ => rfl) (fun _ _ hs h => hs.afterAnyCase? h)
    fun _ _ _ hs h => (madeOf_tagRest? hs h).2

theorem keeps_pageTag : Pattern.Keeps q (fun _ => True) pageTag := by
  intro prev s a rest hs h
  simp only [pageTag, Option.orElse_eq_orElse, Option.orElse_eq_or] at h
  rcases Option.or_eq_some_iff.1 h with h | ⟨-, h⟩
  · exact keeps_documentType _ _ _ _ hs h
  rcases Option.or_eq_some_iff.1 h with h | ⟨-, h⟩
  · obtain ⟨⟨read, rest⟩, hread, he⟩ := Option.map_eq_some_iff.1 h
    obtain rfl := (Prod.mk.inj he).2
    exact ⟨trivial, (keeps_block _ _ _ _ _ hs hread).2⟩
  rcases Option.or_eq_some_iff.1 h with h | ⟨-, h⟩
  · exact keeps_tagOf _ _ _ _ _ hs h
  rcases Option.or_eq_some_iff.1 h with h | ⟨-, h⟩
  · exact keeps_tagOf _ _ _ _ _ hs h
  rcases Option.or_eq_some_iff.1 h with h | ⟨-, h⟩
  · exact keeps_tagOf _ _ _ _ _ hs h
  · exact keeps_tagOf _ _ _ _ _ hs h

theorem madeOf_nonEmptyBodies {bodies : List Text} (h : ∀ body ∈ bodies, MadeOf q body) :
    ∀ body ∈ nonEmptyBodies bodies, MadeOf q body := by
  intro body hbody
  obtain ⟨raw, hraw, rfl⟩ := List.mem_map.1 (List.mem_filter.1 hbody).1
  exact (h raw hraw).trim

end Sanitize

open Sanitize

/-- All that is made of sanitized markup is of a kind. -/
structure Sanitized.MadeOf (q : Char → Bool) (s : Sanitized) : Prop where
  markup : Text.MadeOf q s.markup
  styles : ∀ style ∈ s.styles, Text.MadeOf q style
  scripts : ∀ script ∈ s.scripts, Text.MadeOf q script

/-- The fragment of markup, its style sheets and its scripts are made of what the markup is made
of. -/
theorem madeOf_sanitize (hreference : Text.MadeOf q ("&lt;?" : Text)) (h : Text.MadeOf q markup) :
    (sanitize markup).MadeOf q := by
  have hcomment := keeps_comment.extract h
  have hstyle := (keeps_block "style").extract hcomment.1
  have hscript := (keeps_block "script").extract hstyle.1
  have hpage := keeps_pageTag.extract hscript.1
  have hinstruction := keeps_instruction.extract hpage.1
  refine ⟨(hreference.replace hinstruction.1).trim, madeOf_nonEmptyBodies fun body hbody => ?_,
    madeOf_nonEmptyBodies fun body hbody => ?_⟩
  · obtain ⟨read, hread, rfl⟩ := List.mem_map.1 hbody
    exact hstyle.2 read hread
  · obtain ⟨read, hread, rfl⟩ := List.mem_map.1 hbody
    exact hscript.2 read (List.mem_of_mem_filter hread)

end

end WidgetCompiler.Markup
