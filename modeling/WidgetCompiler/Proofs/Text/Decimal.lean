import WidgetCompiler.Proofs.Text.Run

/-!
# Numbers in names

Names are made with a number in them, and two such names are the same only if their numbers are.
The number is found again because what stands around it has no digits next to it: going through the
digits from one side, one comes to its end (`append_decimal_inj`, `append_decimal_append_inj`).
-/

namespace WidgetCompiler.Text

theorem isDigit_of_mem_decimal {n : Nat} {c : Char} (h : c ∈ decimal n) : c.isDigit = true := by
  rw [decimal, Nat.repr, String.toList_ofList] at h
  exact Nat.isDigit_of_mem_toDigits (by decide) (by decide) h

theorem decimal_injective {m n : Nat} (h : decimal m = decimal n) : m = n := by
  simp only [decimal, Nat.repr, String.toList_ofList] at h
  rw [← Nat.ofDigitChars_toDigits (b := 10) (n := m) (by decide) (by decide), h,
    Nat.ofDigitChars_toDigits (by decide) (by decide)]

theorem decimal_ne_nil (n : Nat) : decimal n ≠ [] := by
  rw [decimal, Nat.repr, String.toList_ofList]
  exact Nat.toDigits_ne_nil

/-- Whether a text has no digits. -/
def digitFree (t : Text) : Bool := t.all fun c => !c.isDigit

/-- A number behind something that ends in no digit. -/
theorem append_decimal_inj {s s' : Text} {m n : Nat} (hs : ∀ c ∈ s.getLast?, c.isDigit = false)
    (hs' : ∀ c ∈ s'.getLast?, c.isDigit = false) (h : s ++ decimal m = s' ++ decimal n) :
    s = s' ∧ m = n := by
  have digits (k : Nat) : ∀ c ∈ (decimal k).reverse, c.isDigit = true :=
    fun c hc => isDigit_of_mem_decimal (List.mem_reverse.1 hc)
  have hreverse := congrArg List.reverse h
  rw [List.reverse_append, List.reverse_append] at hreverse
  obtain ⟨hnumber, hstem⟩ := run_inj (digits m) (digits n) (by simpa using hs) (by simpa using hs')
    hreverse
  exact ⟨List.reverse_injective hstem, decimal_injective (List.reverse_injective hnumber)⟩

/-- A number between two texts, of which the first ends in no digit and the second has none. -/
theorem append_decimal_append_inj {s s' t t' : Text} {m n : Nat}
    (hs : ∀ c ∈ s.getLast?, c.isDigit = false) (hs' : ∀ c ∈ s'.getLast?, c.isDigit = false)
    (ht : digitFree t = true) (ht' : digitFree t' = true)
    (h : s ++ decimal m ++ t = s' ++ decimal n ++ t') : s = s' ∧ m = n ∧ t = t' := by
  have noDigit {t : Text} (ht : digitFree t = true) : ∀ c ∈ t.reverse, (!c.isDigit) = true :=
    fun c hc => List.all_eq_true.1 ht c (List.mem_reverse.1 hc)
  have digit (s : Text) (k : Nat) : ∀ c ∈ (s ++ decimal k).reverse.head?, (!c.isDigit) = false := by
    intro c hc
    obtain ⟨u, d, hd⟩ := (List.eq_nil_or_concat (decimal k)).resolve_left (decimal_ne_nil k)
    rw [List.head?_reverse, hd, List.concat_eq_append, ← List.append_assoc,
      List.getLast?_concat] at hc
    obtain rfl := Option.some.inj hc
    rw [isDigit_of_mem_decimal (n := k) (by rw [hd]; simp)]
    rfl
  have hreverse := congrArg List.reverse h
  rw [List.reverse_append, @List.reverse_append _ (s' ++ decimal n)] at hreverse
  obtain ⟨htail, hrest⟩ := run_inj (noDigit ht) (noDigit ht') (digit s m) (digit s' n) hreverse
  obtain ⟨hstem, hnumber⟩ := append_decimal_inj hs hs' (List.reverse_injective hrest)
  exact ⟨hstem, hnumber, List.reverse_injective htail⟩

end WidgetCompiler.Text
