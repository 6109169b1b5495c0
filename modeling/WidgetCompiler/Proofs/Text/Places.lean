import WidgetCompiler.Proofs.Text.Blank
import Mathlib.Data.List.Infix

/-!
# What holds at every place of a text

A place of a text splits it into what stands before and what follows.  Checks that look for a mark
anywhere in a text ask a question at each of its places, and the answer may depend on both sides.

`Along Q l t` says that the answer is `Q` at every place of `t` when `l` stands before it, whatever
else stands before and behind; `Everywhere` is the case in which nothing is known of what stands
before.  Since nothing is asked of the surroundings, texts that have the property can be put one
behind the other (`Everywhere.append`), and nothing has to be said about their seams.
-/

namespace WidgetCompiler.Text

variable {Q R : Text → Text → Prop} {l s t : Text}

/-- `Q` holds at every place of `t` but its end when `l` stands before `t`: of the text up to the
place and of the text from there on. -/
def Along (Q : Text → Text → Prop) (l t : Text) : Prop :=
  ∀ a b, t = a ++ b → b ≠ [] → ∀ front rest, Q (front ++ l ++ a) (b ++ rest)

/-- `Q` holds at every place of `t`, whatever stands around it. -/
def Everywhere (Q : Text → Text → Prop) (t : Text) : Prop := Along Q [] t

theorem Everywhere.along (h : Everywhere Q t) (l : Text) : Along Q l t := by
  intro a b hab hb front rest
  have := h a b hab hb (front ++ l) rest
  rwa [List.append_nil] at this

namespace Along

theorem nil : Along Q l [] := by
  intro a b hab hb
  exact absurd (List.append_eq_nil_iff.1 hab.symm).2 hb

/-- At the places of the first text it is known that the second one follows. -/
theorem append_of (hs : ∀ a b, s = a ++ b → b ≠ [] → ∀ front rest,
      Q (front ++ l ++ a) (b ++ (t ++ rest)))
    (ht : Along Q (l ++ s) t) : Along Q l (s ++ t) := by
  intro a b hab hb front rest
  rcases List.append_eq_append_iff.1 hab with ⟨a', rfl, rfl⟩ | ⟨b', rfl, rfl⟩
  · have := ht a' b rfl hb front rest
    simpa using this
  · by_cases hb' : b' = []
    · subst hb'
      have := ht [] t rfl (by simpa using hb) front rest
      simpa using this
    · have := hs a b' rfl hb' front rest
      simpa using this

theorem append (hs : Along Q l s) (ht : Along Q (l ++ s) t) : Along Q l (s ++ t) :=
  append_of (fun a b hab hb front rest => hs a b hab hb front (t ++ rest)) ht

theorem cons {c : Char} (hc : ∀ front rest, Q (front ++ l) (c :: (t ++ rest)))
    (ht : Along Q (l ++ [c]) t) : Along Q l (c :: t) := by
  intro a b hab hb front rest
  cases a with
  | nil =>
    obtain rfl : c :: t = b := hab
    simpa using hc front rest
  | cons d a =>
    obtain ⟨rfl, rfl⟩ := List.cons.inj hab
    have := ht a b rfl hb front rest
    simpa using this

theorem mono (h : Along Q l t) (hQR : ∀ a b, Q a b → R a b) : Along R l t :=
  fun a b hab hb front rest => hQR _ _ (h a b hab hb front rest)

/-- More may be known of what stands before. -/
theorem behind (h : Along Q l t) (k : Text) : Along Q (k ++ l) t := by
  intro a b hab hb front rest
  have := h a b hab hb (front ++ k) rest
  rwa [List.append_assoc front] at this

end Along

/-- It is enough that the character at each place settles the question. -/
theorem everywhere_of_forall_mem (h : ∀ c ∈ t, ∀ a b, Q a (c :: b)) : Everywhere Q t := by
  rintro a b rfl hb front rest
  cases b with
  | nil => exact absurd rfl hb
  | cons c b => exact h c (by simp) _ _

namespace Everywhere

theorem nil : Everywhere Q [] := Along.nil

theorem append (hs : Everywhere Q s) (ht : Everywhere Q t) : Everywhere Q (s ++ t) :=
  Along.append hs (ht.along _)

theorem mono (h : Everywhere Q t) (hQR : ∀ a b, Q a b → R a b) : Everywhere R t :=
  Along.mono h hQR

/-- The text by itself, with nothing around it. -/
theorem at_place (h : Everywhere Q t) {a b : Text} (hab : t = a ++ b) (hb : b ≠ []) : Q a b := by
  have := h a b hab hb [] []
  simpa using this

end Everywhere

/-! ## Marks next to a place -/

/-- The text neither begins with the mark nor is it a beginning of the mark. -/
def Diverges (mark t : Text) : Prop := ¬ mark <+: t ∧ ¬ t <+: mark

instance (mark t : Text) : Decidable (Diverges mark t) := inferInstanceAs (Decidable (_ ∧ _))

/-- Whatever follows, such a text does not begin with the mark. -/
theorem Diverges.not_prefix {mark : Text} (h : Diverges mark t) (rest : Text) :
    ¬ mark <+: t ++ rest := by
  intro hm
  rcases List.prefix_or_prefix_of_prefix hm (List.prefix_append t rest) with hm | hm
  · exact h.1 hm
  · exact h.2 hm

/-- Apart from blanks at its end, the text neither ends in the mark nor is it an end of the mark. -/
def EndsApart (mark t : Text) : Prop := ¬ mark <:+ trimEnd t ∧ ¬ trimEnd t <:+ mark

instance (mark t : Text) : Decidable (EndsApart mark t) := inferInstanceAs (Decidable (_ ∧ _))

/-- Whatever stands before, such a text does not end in the mark. -/
theorem EndsApart.not_suffix {mark : Text} (h : EndsApart mark t) (front : Text) :
    ¬ mark <:+ trimEnd (front ++ t) := by
  have hblank : allBlank t = false := by
    refine Bool.eq_false_iff.2 fun ht => h.2 ?_
    rw [trimEnd_of_allBlank ht]
    exact List.nil_suffix
  rw [trimEnd_append_of_not_allBlank hblank]
  intro hm
  rcases List.suffix_or_suffix_of_suffix hm (List.suffix_append front (trimEnd t)) with hm | hm
  · exact h.1 hm
  · exact h.2 hm

/-- So it is however much stands before. -/
theorem EndsApart.behind {mark : Text} (h : EndsApart mark t) (front : Text) :
    EndsApart mark (front ++ t) := by
  refine ⟨h.not_suffix front, fun hm => ?_⟩
  have hblank : allBlank t = false := by
    refine Bool.eq_false_iff.2 fun ht => h.2 ?_
    rw [trimEnd_of_allBlank ht]
    exact List.nil_suffix
  rw [trimEnd_append_of_not_allBlank hblank] at hm
  exact h.2 ((List.suffix_append front (trimEnd t)).trans hm)

/-- The last character settles it. -/
theorem endsApart_of_concat {mark : Text} {c : Char} (hc : isBlank c = false)
    (hm : ∀ d ∈ mark.getLast?, d ≠ c) (hne : mark ≠ []) : EndsApart mark (s ++ [c]) := by
  have hlast : ∀ {a b : Text}, a ≠ [] → a <:+ b → a.getLast? = b.getLast? := by
    rintro a b ha ⟨r, rfl⟩
    rw [List.getLast?_append_of_ne_nil _ ha]
  rw [EndsApart, trimEnd_append_singleton hc]
  constructor
  · intro h
    exact hm c (by rw [hlast hne h]; simp) rfl
  · intro h
    exact hm c (by rw [← hlast (by simp) h]; simp) rfl

end WidgetCompiler.Text
