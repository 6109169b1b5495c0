import WidgetCompiler.Text.Pattern

/-!
# Where patterns match

A search for a pattern asks it at one place after the other.  If it matches at no place, every
search comes back empty and `extract` changes nothing; if it matches somewhere, every search finds
something.  Matches begin at characters of the text, and what `findAll` lists was read at places of the
text, provided that each match leaves an end of what it was given.
-/

namespace WidgetCompiler.Text.Pattern

variable {α : Type} {p : Pattern α} {s : Text}

/-- The pattern matches at no place of the text. -/
def Absent (p : Pattern α) (s : Text) : Prop := ∀ a b, s = a ++ b → b ≠ [] → ∀ prev, p prev b = none

/-- What a match leaves is an end of the text. -/
def Consumes (p : Pattern α) : Prop := ∀ prev s a rest, p prev s = some (a, rest) → rest <:+ s

theorem Absent.head {c : Char} (h : Absent p (c :: s)) (prev : Option Char) :
    p prev (c :: s) = none :=
  h [] (c :: s) rfl (by simp) prev

theorem Absent.tail {c : Char} (h : Absent p (c :: s)) : Absent p s :=
  fun a b hab => h (c :: a) b (by rw [hab, List.cons_append])

/-! ## No match -/

theorem Absent.find?_eq_none (h : Absent p s) (prev : Option Char) : find? p prev s = none := by
  induction s generalizing prev with
  | nil => rfl
  | cons c s ih => rw [find?, h.head prev, ih h.tail, Option.map_none]

theorem Absent.findOffset?_eq_none (h : Absent p s) : findOffset? p s = none := by
  have along (s : Text) (h : Absent p s) (offset : Nat) (prev : Option Char) :
      findOffsetFrom? p offset prev s = none := by
    induction s generalizing offset prev with
    | nil => rfl
    | cons c s ih => rw [findOffsetFrom?, h.head prev, ih h.tail]
  exact along s h 0 none

theorem Absent.findValue?_eq_none (h : Absent p s) : findValue? p s = none := by
  have along (s : Text) (h : Absent p s) (prev : Option Char) : findValueFrom? p prev s = none := by
    induction s generalizing prev with
    | nil => rfl
    | cons c s ih => rw [findValueFrom?, h.head prev, ih h.tail]
  exact along s h none

theorem Absent.extract_eq (h : Absent p s) : extract p s = (s, []) := by
  have along (s : Text) (h : Absent p s) (prev : Option Char) : extractFrom p prev s = (s, []) := by
    induction s generalizing prev with
    | nil => rw [extractFrom]
    | cons c s ih => rw [extractFrom, h.head prev, ih h.tail]
  exact along s h none

/-! ## Matches -/

/-- A match at a place is found, though perhaps not as the first. -/
theorem isSome_findOffset? {a b : Text} (hs : s = a ++ b) (hb : b ≠ [])
    (h : (p a.getLast? b).isSome = true) : (findOffset? p s).isSome = true := by
  have along (a : Text) (offset : Nat) (prev : Option Char)
      (h : (p (a.getLast?.or prev) b).isSome = true) :
      (findOffsetFrom? p offset prev (a ++ b)).isSome = true := by
    induction a generalizing offset prev with
    | nil =>
      obtain ⟨c, b, rfl⟩ := List.exists_cons_of_ne_nil hb
      obtain ⟨found, hfound⟩ := Option.isSome_iff_exists.1 h
      have hfound : p prev (c :: b) = some found := hfound
      rw [List.nil_append, findOffsetFrom?, hfound]
      rfl
    | cons c a ih =>
      rw [List.cons_append, findOffsetFrom?]
      split
      · rfl
      · have hprev : (c :: a).getLast?.or prev = a.getLast?.or (some c) := by
          rw [List.getLast?_cons, Option.some_or]
          cases a.getLast? <;> rfl
        exact ih (offset + 1) (some c) (hprev ▸ h)
  subst hs
  exact along a 0 none (by rwa [Option.or_none])

theorem isSome_findOffset?_eq (p : Pattern α) (s : Text) : (findOffset? p s).isSome = occursIn p s := by
  have along (offset : Nat) (prev : Option Char) :
      (findOffsetFrom? p offset prev s).isSome = (find? p prev s).isSome := by
    induction s generalizing offset prev with
    | nil => rfl
    | cons c s ih =>
      rw [findOffsetFrom?, find?]
      split
      · next hmatch => rw [hmatch]; rfl
      · next hmatch => rw [hmatch, Option.isSome_map, ih]
  exact along 0 none

/-- What was read in a match that `findAll` lists was read at its offset. -/
theorem match_of_mem_findAll (hp : Consumes p) {found : Found α} (h : found ∈ findAll p s) :
    ∃ prev rest, p prev (s.drop found.offset) = some (found.value, rest) := by
  have along (offset : Nat) (prev : Option Char) (s : Text) (h : found ∈ findAllFrom p offset prev s) :
      ∃ n, found.offset = offset + n ∧ ∃ prev rest, p prev (s.drop n) = some (found.value, rest) := by
    fun_induction findAllFrom p offset prev s with
    | case1 => simp at h
    | case2 offset prev c s a rest hmatch hlength read ih =>
      rcases List.mem_cons.1 h with rfl | h
      · exact ⟨0, rfl, prev, rest, hmatch⟩
      · obtain ⟨n, hn, hread⟩ := ih h
        have hrest : rest = (c :: s).drop read := List.suffix_iff_eq_drop.1 (hp prev (c :: s) a rest hmatch)
        refine ⟨read + n, by rw [hn, Nat.add_assoc], ?_⟩
        rwa [← List.drop_drop, ← hrest]
    | case3 => simp at h
    | case4 offset prev c s _ ih =>
      obtain ⟨n, hn, hread⟩ := ih h
      exact ⟨n + 1, by rw [hn]; omega, hread⟩
  obtain ⟨n, hn, hread⟩ := along 0 none s h
  rw [hn, Nat.zero_add]
  exact hread

/-- What was read in a match that `findAll` lists was read at a place of the text. -/
theorem of_mem_findAll (hp : Consumes p) {found : Found α} (h : found ∈ findAll p s) :
    ∃ a b prev rest, s = a ++ b ∧ p prev b = some (found.value, rest) := by
  obtain ⟨prev, rest, hread⟩ := match_of_mem_findAll hp h
  exact ⟨s.take found.offset, s.drop found.offset, prev, rest, (List.take_append_drop _ _).symm, hread⟩

/-- A match that `findAll` lists begins at a character of the text. -/
theorem offset_lt_of_mem_findAll {found : Found α} (h : found ∈ findAll p s) :
    found.offset < s.length := by
  have along (offset : Nat) (prev : Option Char) (s : Text) (h : found ∈ findAllFrom p offset prev s) :
      found.offset < offset + s.length := by
    fun_induction findAllFrom p offset prev s with
    | case1 => simp at h
    | case2 offset prev c s a rest _ hlength read ih =>
      rw [List.length_cons]
      rcases List.mem_cons.1 h with rfl | h
      · exact Nat.lt_add_of_pos_right (Nat.succ_pos _)
      · have hrest := ih h
        omega
    | case3 => simp at h
    | case4 offset prev c s _ ih =>
      have hrest := ih h
      rw [List.length_cons]
      omega
  have hlt := along 0 none s h
  omega

theorem lt_of_findOffset? {n : Nat} (h : findOffset? p s = some n) : n < s.length := by
  have along (offset : Nat) (prev : Option Char) (s : Text)
      (h : findOffsetFrom? p offset prev s = some n) : n < offset + s.length := by
    induction s generalizing offset prev with
    | nil => simp [findOffsetFrom?] at h
    | cons c s ih =>
      rw [findOffsetFrom?] at h
      rw [List.length_cons]
      split at h
      · obtain rfl := Option.some.inj h
        omega
      · have hrest := ih _ _ h
        omega
  have hlt := along 0 none s h
  omega

end WidgetCompiler.Text.Pattern
