import WidgetCompiler.Text.Basic

/-!
# Dictionaries

A `Dictionary` holds values under texts.  Its entries stand in the order of their keys, each key
once, so that a walk over a dictionary does not depend on the order in which it was filled.

`find?_insert` says what an insertion changes, and `find?_ofList` what a list of entries leaves
behind.
-/

namespace WidgetCompiler.Text

/-- Values under texts, in the order of the texts. -/
abbrev Dictionary (α : Type) := List (Text × α)

namespace Dictionary

variable {α : Type}

/-- The dictionary with a value under a key, in place of the one that was there. -/
def insert (key : Text) (value : α) : Dictionary α → Dictionary α
  | [] => [(key, value)]
  | (k, v) :: d =>
    if k = key then (key, value) :: d
    else if before key k then (key, value) :: (k, v) :: d
    else (k, v) :: insert key value d

/-- The dictionary of the given entries; of two under one key the later counts. -/
def ofList (entries : List (Text × α)) : Dictionary α :=
  entries.foldl (fun d (k, v) => insert k v d) []

/-- The value under a key. -/
def find? (d : Dictionary α) (key : Text) : Option α := d.lookup key

/-- The keys in order. -/
def keys (d : Dictionary α) : List Text := d.map (·.1)

/-- Whether there is a value under the key. -/
def has (d : Dictionary α) (key : Text) : Bool := (d.find? key).isSome

theorem find?_cons (k key : Text) (v : α) (d : Dictionary α) :
    find? ((k, v) :: d) key = if key = k then some v else find? d key := by
  rw [find?, List.lookup_cons]
  by_cases h : key = k
  · simp [h]
  · rw [beq_eq_false_iff_ne.2 h, if_neg h, find?]

/-- An insertion changes what is found under its key, and nothing else. -/
theorem find?_insert (key k : Text) (value : α) (d : Dictionary α) :
    find? (insert key value d) k = if k = key then some value else find? d k := by
  induction d with
  | nil => simp [insert, find?_cons]
  | cons e d ih =>
    obtain ⟨k', v'⟩ := e
    unfold insert
    split
    · next h => subst h; simp only [find?_cons]; split <;> simp_all
    · next h =>
      split
      · simp [find?_cons]
      · simp only [find?_cons, ih]
        by_cases hk : k = k'
        · have : k ≠ key := fun e => h (hk ▸ e)
          simp [hk, h]
        · simp [hk]

/-- Of several entries under one key the last is found. -/
theorem find?_ofList (entries : List (Text × α)) (key : Text) :
    find? (ofList entries) key = entries.reverse.lookup key := by
  have filled (d : Dictionary α) : find? (entries.foldl (fun d (k, v) => insert k v d) d) key
      = (entries.reverse.lookup key).or (find? d key) := by
    induction entries generalizing d with
    | nil => rfl
    | cons e es ih =>
      obtain ⟨k, v⟩ := e
      rw [List.foldl_cons, ih, List.reverse_cons, List.lookup_append, find?_insert, Option.or_assoc]
      by_cases h : key = k
      · simp [h]
      · simp [List.lookup_cons, beq_eq_false_iff_ne.2 h, h]
  rw [ofList, filled]
  simp [find?]

theorem has_iff_mem_keys (d : Dictionary α) (key : Text) : d.has key = true ↔ key ∈ d.keys := by
  induction d with
  | nil => simp [has, find?, keys]
  | cons e d ih =>
    obtain ⟨k, v⟩ := e
    simp only [has, find?_cons, keys] at ih ⊢
    by_cases h : key = k <;> simp [h, ih]

end Dictionary

end WidgetCompiler.Text
