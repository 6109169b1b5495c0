import WidgetCompiler.Text.Pattern

/-!
# Taking matches out of a text piece by piece

Where a text is written piece by piece, and the places of a pattern are whole pieces, `extract`
leaves the other pieces and lists what was read in these (`extract_flatMap`).  This needs a pattern
that looks only at what follows a place (`Forward`), and pieces that are matches (`ReadsAs`) or have
no match in them (`Passes`) whatever is written behind them.
-/

namespace WidgetCompiler.Text.Pattern

variable {α : Type} {p : Pattern α} {s t : Text}

/-- The pattern does not look at what stands before a place. -/
def Forward (p : Pattern α) : Prop := ∀ prev prev' s, p prev s = p prev' s

/-- No match begins in the text where the other text follows. -/
def PassesBefore (p : Pattern α) (t rest : Text) : Prop :=
  ∀ a b, t = a ++ b → b ≠ [] → p none (b ++ rest) = none

/-- No match begins in the text, whatever follows. -/
def Passes (p : Pattern α) (t : Text) : Prop := ∀ rest, PassesBefore p t rest

/-- The text is a match in which the given value is read, whatever follows. -/
def ReadsAs (p : Pattern α) (t : Text) (a : α) : Prop :=
  t ≠ [] ∧ ∀ rest, p none (t ++ rest) = some (a, rest)

theorem PassesBefore.tail {c : Char} {rest : Text} (h : PassesBefore p (c :: t) rest) :
    PassesBefore p t rest :=
  fun a b hab => h (c :: a) b (by rw [hab, List.cons_append])

theorem PassesBefore.append {rest : Text} (hs : PassesBefore p s (t ++ rest))
    (ht : PassesBefore p t rest) : PassesBefore p (s ++ t) rest := by
  intro a b hab hb
  rcases List.append_eq_append_iff.1 hab with ⟨a', rfl, rfl⟩ | ⟨b', rfl, rfl⟩
  · exact ht a' b rfl hb
  · by_cases hb' : b' = []
    · subst hb'
      exact ht [] t rfl (by simpa using hb)
    · rw [List.append_assoc]
      exact hs a b' rfl hb'

theorem find?_of_match {prev : Option Char} {a : α} {rest : Text} (hs : s ≠ [])
    (h : p prev s = some (a, rest)) : find? p prev s = some ([], a, rest) := by
  obtain ⟨c, s, rfl⟩ := List.exists_cons_of_ne_nil hs
  rw [find?, h]

/-- What was read in the first match. -/
theorem findValueFrom?_eq (prev : Option Char) (s : Text) :
    findValueFrom? p prev s = (find? p prev s).map (·.2.1) := by
  induction s generalizing prev with
  | nil => rfl
  | cons c s ih =>
    rw [findValueFrom?, find?]
    split
    · rfl
    · rw [ih, Option.map_map]
      rfl

/-! ## Extraction -/

section

variable (hp : Forward p)

include hp

theorem Forward.extractFrom_eq (prev : Option Char) (s : Text) :
    extractFrom p prev s = extract p s := by
  rw [extract]
  cases s with
  | nil => rw [extractFrom, extractFrom]
  | cons c s => rw [extractFrom, extractFrom, hp prev none]

/-- What passes is kept. -/
theorem Forward.extract_append (h : PassesBefore p t s) :
    extract p (t ++ s) = (t ++ (extract p s).1, (extract p s).2) := by
  induction t with
  | nil => rfl
  | cons c t ih =>
    have hnone : p none (c :: (t ++ s)) = none := h [] (c :: t) rfl (by simp)
    rw [List.cons_append, extract, extractFrom, hnone]
    simp only [hp.extractFrom_eq]
    rw [ih h.tail, List.cons_append]

/-- A match is left out, and what was read in it is listed. -/
theorem Forward.extract_match {a : α} {rest : Text} (h : p none s = some (a, rest))
    (hlength : rest.length < s.length) :
    extract p s = ((extract p rest).1, a :: (extract p rest).2) := by
  cases s with
  | nil => simp at hlength
  | cons c s =>
    have hle : rest.length ≤ s.length := by simpa [Nat.lt_succ_iff] using hlength
    rw [extract, extractFrom, h]
    simp only [hle, if_true, hp.extractFrom_eq]

/-- Of a text that is written piece by piece, the pieces remain that are no matches, and what was
read in the others is listed in their order. -/
theorem Forward.extract_flatMap {β : Type} {f : β → Text} {value? : β → Option α} {xs : List β}
    (htaken : ∀ x ∈ xs, ∀ a, value? x = some a → ReadsAs p (f x) a)
    (hkept : ∀ x ∈ xs, value? x = none → Passes p (f x)) :
    extract p (xs.flatMap f)
      = ((xs.filter fun x => (value? x).isNone).flatMap f, xs.filterMap value?) := by
  induction xs with
  | nil => simp [extract, extractFrom]
  | cons x xs ih =>
    have hrest := ih (fun y hy => htaken y (List.mem_cons_of_mem x hy))
      (fun y hy => hkept y (List.mem_cons_of_mem x hy))
    rw [List.flatMap_cons]
    cases hx : value? x with
    | some a =>
      obtain ⟨hne, hreads⟩ := htaken x List.mem_cons_self a hx
      have hlength : (xs.flatMap f).length < (f x ++ xs.flatMap f).length := by
        have := List.length_pos_iff.2 hne
        rw [List.length_append]
        omega
      rw [hp.extract_match (hreads _) hlength, hrest, List.filter_cons_of_neg (by simp [hx]),
        List.filterMap_cons_some hx]
    | none =>
      rw [hp.extract_append (hkept x List.mem_cons_self hx _), hrest,
        List.filter_cons_of_pos (by simp [hx]), List.flatMap_cons, List.filterMap_cons_none hx]

/-- A first match stands behind what passes. -/
theorem Forward.find?_append (prev : Option Char) (h : PassesBefore p t s) :
    ∃ prev', find? p prev (t ++ s)
      = (find? p prev' s).map fun (before, a, rest) => (t ++ before, a, rest) := by
  induction t generalizing prev with
  | nil => exact ⟨prev, by simp⟩
  | cons c t ih =>
    have hnone : p prev (c :: (t ++ s)) = none := (hp prev none _).trans (h [] (c :: t) rfl (by simp))
    obtain ⟨prev', hfind⟩ := ih (some c) h.tail
    refine ⟨prev', ?_⟩
    rw [List.cons_append, find?, hnone, hfind, Option.map_map]
    rfl

end

/-- Where nothing is read in a match, what remains is all. -/
theorem Forward.fst_extract_flatMap {p : Pattern Unit} (hp : Forward p) {β : Type} {f : β → Text}
    {taken : β → Bool} {xs : List β} (htaken : ∀ x ∈ xs, taken x = true → ReadsAs p (f x) ())
    (hkept : ∀ x ∈ xs, taken x = false → Passes p (f x)) :
    (extract p (xs.flatMap f)).1 = (xs.filter (!taken ·)).flatMap f := by
  have hnone (x : β) : (Option.guard taken x).isNone = !taken x := by
    cases h : taken x <;> simp [Option.guard, h]
  have hreads : ∀ x ∈ xs, ∀ a, (Option.guard taken x).map (fun _ => ()) = some a → ReadsAs p (f x) a := by
    intro x hx a h
    obtain ⟨y, hy, -⟩ := Option.map_eq_some_iff.1 h
    exact htaken x hx (Option.guard_eq_some_iff.1 hy).2
  have hpasses : ∀ x ∈ xs, (Option.guard taken x).map (fun _ => ()) = none → Passes p (f x) :=
    fun x hx h => hkept x hx (by simpa [Option.guard_eq_none_iff] using h)
  rw [hp.extract_flatMap hreads hpasses]
  simp only [Option.isNone_map, hnone]

end WidgetCompiler.Text.Pattern
