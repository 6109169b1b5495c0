import WidgetCompiler.Text.Basic
import Mathlib.Data.List.Infix

/-!
# Where two texts meet

When a text is written behind another one, a mark can come about across the place where they meet,
half of it in the one and half in the other.  `Apart mark s t` says that this does not happen.
Then every place of the mark in `s ++ t` is a place in `s` or a place in `t` (`places_append`), and
that is what every induction over a text that grows needs to know.

The two tests that nearly always settle it look at one character only: the last one of `s`
(`apart_of_last`) or the first one of `t` (`apart_of_head`).
-/

namespace WidgetCompiler.Text

/-- No end of `s` makes the mark together with a beginning of `t`. -/
def Apart (mark s t : Text) : Prop :=
  ∀ p q, mark = p ++ q → p ≠ [] → q ≠ [] → p <:+ s → ¬ q <+: t

/-- Whether the mark stands nowhere in the text. -/
def Lacks (mark t : Text) : Prop := ¬ mark <:+: t

instance (mark t : Text) : Decidable (Lacks mark t) := inferInstanceAs (Decidable (¬ mark <:+: t))

namespace Apart

variable {mark s t u : Text}

/-- What follows may be cut short. -/
theorem of_prefix (h : Apart mark s t) (hu : u <+: t) : Apart mark s u :=
  fun p q hm hp hq hs hqu => h p q hm hp hq hs (hqu.trans hu)

/-- What precedes may be cut short at its beginning. -/
theorem of_suffix (h : Apart mark s t) (hu : u <:+ s) : Apart mark u t :=
  fun p q hm hp hq hpu => h p q hm hp hq (hpu.trans hu)

end Apart

variable {mark s t a b : Text}

/-- The last character of the first text goes on in no mark. -/
theorem apart_of_last (h : ∀ c ∈ s.getLast?, c ∉ mark.dropLast) : Apart mark s t := by
  rintro p q rfl hp hq ⟨r, rfl⟩ -
  refine h (p.getLast hp) ?_ ?_
  · rw [List.getLast?_append_of_ne_nil _ hp, List.getLast?_eq_getLast_of_ne_nil hp]
    rfl
  · rw [List.dropLast_append_of_ne_nil hq]
    exact List.mem_append_left _ (List.getLast_mem hp)

/-- The first character of the second text ends or goes on in no mark. -/
theorem apart_of_head (h : ∀ c ∈ t.head?, c ∉ mark.tail) : Apart mark s t := by
  rintro p q rfl hp hq - ⟨r, rfl⟩
  refine h (q.head hq) ?_ ?_
  · rw [List.head?_append_of_ne_nil _ hq, List.head?_eq_some_head hq]
    rfl
  · rw [List.tail_append_of_ne_nil hp]
    exact List.mem_append_right _ (List.head_mem hq)

/-- The first text ends in a part of `u`, and the mark stands nowhere in `u` and the second text
joined; what precedes that part ends in a character that no mark goes on from. -/
theorem apart_of_joined {front l u : Text} (hf : ∀ c ∈ front.getLast?, c ∉ mark.dropLast)
    (hl : l <:+ u) (h : Lacks mark (u ++ t)) : Apart mark (front ++ l) t := by
  rintro p q rfl hp hq hps ⟨r, rfl⟩
  rcases List.suffix_or_suffix_of_suffix hps (List.suffix_append front l) with hpl | ⟨x, rfl⟩
  · obtain ⟨y, rfl⟩ := hpl.trans hl
    exact h ⟨y, r, by simp⟩
  · by_cases hx : x = []
    · obtain ⟨y, rfl⟩ := hl
      exact h ⟨y, r, by simp [hx]⟩
    · -- `p` reaches over `l` into `front`, whose last character it then holds
      have hxf : x <:+ front := by
        obtain ⟨y, hy⟩ := hps
        rw [← List.append_assoc] at hy
        exact ⟨y, List.append_cancel_right hy⟩
      obtain ⟨y, rfl⟩ := hxf
      refine hf (x.getLast hx) ?_ ?_
      · rw [List.getLast?_append_of_ne_nil _ hx, List.getLast?_eq_getLast_of_ne_nil hx]
        rfl
      · rw [List.dropLast_append_of_ne_nil hq]
        exact List.mem_append_left _ (List.mem_append_left _ (List.getLast_mem hx))

/-- A place of the mark in two texts that keep it apart is a place in one of them. -/
theorem places_append (h : Apart mark s t) (e : s ++ t = a ++ mark ++ b) :
    (∃ b', s = a ++ mark ++ b' ∧ b = b' ++ t) ∨ ∃ a', a = s ++ a' ∧ t = a' ++ mark ++ b := by
  rw [List.append_assoc] at e
  rcases List.append_eq_append_iff.1 e with ⟨a', ha, ht⟩ | ⟨r, hs, hr⟩
  · exact .inr ⟨a', ha, by rw [ht, List.append_assoc]⟩
  · -- `r` is what `s` holds from the beginning of the mark on
    rcases List.append_eq_append_iff.1 hr with ⟨b', hr', hb⟩ | ⟨q, hq, ht⟩
    · exact .inl ⟨b', by rw [hs, hr', List.append_assoc], hb⟩
    · by_cases hr0 : r = []
      · subst hr0
        exact .inr ⟨[], by simpa using hs.symm, by simpa [hq] using ht⟩
      · by_cases hq0 : q = []
        · subst hq0
          exact .inl ⟨[], by simp [hs, hq], by simpa using ht.symm⟩
        · exact absurd ⟨b, ht.symm⟩ (h r q hq hr0 hq0 ⟨a, hs.symm⟩)

/-- A mark that stands in neither text stands nowhere in the two. -/
theorem Lacks.append (hs : Lacks mark s) (ht : Lacks mark t) (h : Apart mark s t) :
    Lacks mark (s ++ t) := by
  rintro ⟨a, b, e⟩
  rcases places_append h e.symm with ⟨b', hb, -⟩ | ⟨a', -, ha⟩
  · exact hs ⟨a, b', hb.symm⟩
  · exact ht ⟨a', b, ha.symm⟩

theorem Lacks.of_infix (ht : Lacks mark t) (hs : s <:+: t) : Lacks mark s :=
  fun h => ht (h.trans hs)

/-- A text without one of the mark's characters lacks the mark. -/
theorem lacks_of_not_mem {c : Char} (hc : c ∈ mark) (ht : c ∉ t) : Lacks mark t :=
  fun h => ht (h.subset hc)

/-- Lines without a mark do not make one, unless it goes over the end of a line. -/
theorem lacks_joinLines {ls : List Text} (hne : mark ≠ []) (hmark : '\n' ∉ mark)
    (h : ∀ l ∈ ls, Lacks mark l) : Lacks mark (joinLines ls) := by
  induction ls with
  | nil => simpa [Lacks, joinLines] using hne
  | cons l ls ih =>
    have hnewline : Lacks mark ['\n'] := by
      obtain ⟨c, mark, rfl⟩ := List.exists_cons_of_ne_nil hne
      refine lacks_of_not_mem List.mem_cons_self fun hc => hmark ?_
      rw [← List.mem_singleton.1 hc]
      exact List.mem_cons_self
    have hrest : Lacks mark (['\n'] ++ joinLines ls) := by
      refine hnewline.append (ih fun l' hl' => h l' (List.mem_cons_of_mem _ hl')) (apart_of_last ?_)
      simpa using fun hm => hmark (List.dropLast_subset _ hm)
    refine (h l List.mem_cons_self).append hrest (apart_of_head ?_)
    simpa using fun hm => hmark (List.mem_of_mem_tail hm)

/-- A prefix that ends in the mark, within two texts that keep it apart. -/
theorem prefix_of_prefix_append (h : Apart mark s t) (ht : Lacks mark t)
    (hp : a ++ mark <+: s ++ t) : a ++ mark <+: s := by
  obtain ⟨b, hb⟩ := hp
  rcases places_append h hb.symm with ⟨b', hs, -⟩ | ⟨a', -, ha⟩
  · exact ⟨b', hs.symm⟩
  · exact absurd ⟨a', b, ha.symm⟩ ht

/-- A text is cut at the first place of a mark, which stands behind a text that lacks it and does
not begin it. -/
theorem cut?_of_lacks (ht : Lacks mark t) (h : Apart mark t mark) (rest : Text) :
    cut? mark (t ++ (mark ++ rest)) = some (t, rest) := by
  induction t with
  | nil =>
    cases mark with
    | nil => cases rest <;> rfl
    | cons m mark =>
      have hafter : after? (m :: mark) (m :: (mark ++ rest)) = some rest := after?_eq_some.2 rfl
      simp only [List.nil_append, List.cons_append, cut?, hafter]
  | cons c t ih =>
    have hnone : after? mark (c :: (t ++ (mark ++ rest))) = none := by
      refine Option.eq_none_iff_forall_ne_some.2 fun r hr => ?_
      have hprefix : mark <+: (c :: t) ++ (mark ++ rest) := ⟨r, (after?_eq_some.1 hr).symm⟩
      rcases List.prefix_or_prefix_of_prefix hprefix (List.prefix_append (c :: t) _) with
        hin | ⟨q, rfl⟩
      · exact ht hin.isInfix
      · -- the rest of the mark stands at the beginning of the mark behind the text
        have hq : q <+: (c :: t) ++ q := by
          have hrest : q <+: ((c :: t) ++ q) ++ rest :=
            (List.prefix_append_right_inj (c :: t)).1 hprefix
          exact List.prefix_of_prefix_length_le hrest (List.prefix_append _ _) (by simp; omega)
        by_cases hnil : q = []
        · exact ht (by simp [hnil])
        · exact h (c :: t) q rfl (by simp) hnil (List.suffix_refl _) hq
    have hrest := ih (ht.of_infix (List.suffix_cons c t).isInfix) (h.of_suffix (List.suffix_cons c t))
    rw [List.cons_append, cut?, hnone]
    simp [hrest]

/-! ## Texts without a character of a mark -/

theorem after?_of_not_mem (h : ∀ c ∈ t, c ∉ mark) (hmark : mark ≠ []) : after? mark t = none := by
  cases mark with
  | nil => exact absurd rfl hmark
  | cons m mark =>
    cases t with
    | nil => simp [after?]
    | cons c t =>
      have hc : m ≠ c := fun e => h c (by simp) (by simp [e])
      simp [after?, hc]

/-- What has no character of a mark goes on none. -/
theorem after?_append_of_not_mem (h : ∀ c ∈ t, c ∉ mark) (hmark : mark ≠ []) (s : Text) :
    after? mark (s ++ t) = (after? mark s).map (· ++ t) := by
  induction s generalizing mark with
  | nil =>
    have hnil : after? mark [] = none := after?_of_not_mem (fun _ hc => absurd hc List.not_mem_nil) hmark
    rw [List.nil_append, after?_of_not_mem h hmark, hnil]
    rfl
  | cons c s ih =>
    cases mark with
    | nil => exact absurd rfl hmark
    | cons m mark =>
      by_cases hm : m = c
      · subst hm
        cases mark with
        | nil => simp [after?]
        | cons m' mark =>
          have hbehind : ∀ d ∈ t, d ∉ m' :: mark := fun d hd hmem => h d hd (List.mem_cons_of_mem _ hmem)
          have hrest := ih hbehind (by simp)
          simpa [after?] using hrest
      · simp [after?, hm]

theorem cut?_of_not_mem (h : ∀ c ∈ t, c ∉ mark) (hmark : mark ≠ []) : cut? mark t = none := by
  induction t with
  | nil => simp [cut?, hmark]
  | cons c t ih =>
    rw [cut?, after?_of_not_mem h hmark, ih fun d hd => h d (List.mem_cons_of_mem _ hd)]
    rfl

/-- So a text is cut before what has no character of the mark, or not at all. -/
theorem cut?_append_of_not_mem (h : ∀ c ∈ t, c ∉ mark) (hmark : mark ≠ []) (s : Text) :
    cut? mark (s ++ t) = (cut? mark s).map fun (before, rest) => (before, rest ++ t) := by
  induction s with
  | nil =>
    have hnil : cut? mark [] = none := cut?_of_not_mem (fun _ hc => absurd hc List.not_mem_nil) hmark
    rw [List.nil_append, cut?_of_not_mem h hmark, hnil]
    rfl
  | cons c s ih =>
    rw [List.cons_append, cut?, ← List.cons_append, after?_append_of_not_mem h hmark, ih, cut?]
    cases after? mark (c :: s) with
    | some rest => rfl
    | none => simp [Function.comp_def]

end WidgetCompiler.Text
