import WidgetCompiler.Text.Dictionary
import Mathlib.Data.Char
import Mathlib.Data.List.Lex
import Mathlib.Data.List.Nodup

/-!
# What is found in a dictionary

What is found under a key is an entry with that key, and where no key is repeated, the only one.  A
dictionary that was filled entry by entry repeats none, as its keys stand in order
(`nodup_keys_ofList`).
-/

namespace WidgetCompiler.Text

/-- Texts are ordered by their first characters that differ. -/
theorem before_iff_lt {s t : Text} : before s t = true ↔ s < t := by
  fun_induction before s t with
  | case1 => simp
  | case2 => simp
  | case3 => simp
  | case4 c s t ih => rw [ih, List.cons_lt_cons_iff]; simp
  | case5 c s d t hne =>
    rw [List.cons_lt_cons_iff, decide_eq_true_eq, Char.lt_def]
    simp only [hne, false_and, or_false]
    exact UInt32.lt_iff_toNat_lt.symm

namespace Dictionary

variable {α : Type} {entries : List (Text × α)} {key : Text} {value : α}

theorem lookup_of_mem (h : (entries.map (·.1)).Nodup) (hm : (key, value) ∈ entries) :
    entries.lookup key = some value := by
  induction entries with
  | nil => simp at hm
  | cons e entries ih =>
    obtain ⟨k, v⟩ := e
    obtain ⟨hfirst, hrest⟩ := List.nodup_cons.1 h
    rcases List.mem_cons.1 hm with heq | hm
    · obtain ⟨rfl, rfl⟩ := Prod.mk.inj heq
      simp
    · have hne : key ≠ k := fun heq => hfirst (List.mem_map.2 ⟨_, hm, heq⟩)
      simpa only [List.lookup_cons, beq_eq_false_iff_ne.2 hne] using ih hrest hm

/-- What is found under a key is there with that key. -/
theorem mem_of_find? {d : Dictionary α} (h : d.find? key = some value) : (key, value) ∈ d := by
  induction d with
  | nil => simp [find?] at h
  | cons e d ih =>
    obtain ⟨k, v⟩ := e
    rw [find?_cons] at h
    split at h
    · next hk =>
      obtain rfl := Option.some.inj h
      exact hk ▸ List.mem_cons_self
    · exact List.mem_cons_of_mem _ (ih h)

/-- The value of an entry is found if no entry with its key has another one. -/
theorem find?_ofList_of_unique (hm : (key, value) ∈ entries)
    (h : ∀ v, (key, v) ∈ entries → v = value) : find? (ofList entries) key = some value := by
  rw [find?_ofList]
  cases hfind : entries.reverse.lookup key with
  | none =>
    have hnone := List.lookup_eq_none_iff.1 hfind _ (List.mem_reverse.2 hm)
    exact absurd rfl (bne_iff_ne.1 hnone)
  | some v =>
    have hv : (key, v) ∈ entries.reverse := mem_of_find? hfind
    rw [h v (List.mem_reverse.1 hv)]

/-- The value of an entry is found where no key is repeated. -/
theorem find?_ofList_of_mem (h : (entries.map (·.1)).Nodup) (hm : (key, value) ∈ entries) :
    find? (ofList entries) key = some value :=
  find?_ofList_of_unique hm fun _ hv => (Prod.mk.inj (List.inj_on_of_nodup_map h hv hm rfl)).2

/-- Under a key that no entry has, nothing is found. -/
theorem find?_ofList_of_not_mem (h : key ∉ entries.map (·.1)) :
    find? (ofList entries) key = none := by
  rw [find?_ofList, List.lookup_eq_none_iff]
  intro e he
  exact bne_iff_ne.2 fun heq => h (List.mem_map.2 ⟨e, List.mem_reverse.1 he, heq.symm⟩)

/-! ## Keys in order -/

theorem keys_insert_subset {d : Dictionary α} : ∀ k ∈ (insert key value d).keys, k = key ∨ k ∈ d.keys := by
  fun_induction insert key value d with
  | case1 => simp [keys]
  | case2 v d => simp [keys]
  | case3 k v d hne hbefore => simp [keys]
  | case4 k v d hne hbefore ih =>
    intro k' hk'
    rcases List.mem_cons.1 hk' with rfl | hk'
    · exact .inr List.mem_cons_self
    · exact (ih k' hk').imp_right (List.mem_cons_of_mem k)

/-- An insertion keeps the keys in order. -/
theorem pairwise_keys_insert {d : Dictionary α} (h : d.keys.Pairwise (· < ·)) :
    (insert key value d).keys.Pairwise (· < ·) := by
  fun_induction insert key value d with
  | case1 => simp [keys]
  | case2 v d => exact h
  | case3 k v d hne hbefore =>
    have hfirst : key < k := before_iff_lt.1 hbefore
    refine List.pairwise_cons.2 ⟨fun k' hk' => ?_, h⟩
    rcases List.mem_cons.1 hk' with rfl | hk'
    · exact hfirst
    · exact hfirst.trans ((List.pairwise_cons.1 h).1 k' hk')
  | case4 k v d hne hbefore ih =>
    obtain ⟨hk, hd⟩ := List.pairwise_cons.1 h
    have hlast : k < key := by
      rcases lt_trichotomy k key with hlt | heq | hlt
      · exact hlt
      · exact absurd heq hne
      · exact absurd (before_iff_lt.2 hlt) hbefore
    refine List.pairwise_cons.2 ⟨fun k' hk' => ?_, ih hd⟩
    rcases keys_insert_subset k' hk' with rfl | hk'
    · exact hlast
    · exact hk k' hk'

/-- A dictionary that was filled entry by entry has each key once. -/
theorem nodup_keys_ofList (entries : List (Text × α)) : (ofList entries).keys.Nodup := by
  have filled (d : Dictionary α) (hd : d.keys.Pairwise (· < ·)) :
      (entries.foldl (fun d e => insert e.1 e.2 d) d).keys.Pairwise (· < ·) := by
    induction entries generalizing d with
    | nil => exact hd
    | cons e entries ih => exact ih _ (pairwise_keys_insert hd)
  exact (filled [] List.Pairwise.nil).imp fun hlt => ne_of_lt hlt

end Dictionary

end WidgetCompiler.Text
