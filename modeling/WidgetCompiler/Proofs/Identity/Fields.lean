import WidgetCompiler.Identity.Sources
import WidgetCompiler.Proofs.Text.Blank

/-!
# The fields of an identity

What one source knows of an identity is a value for each of five fields, or none.  With the fields as
data, the operations on such records are said once for all of them: `set` changes the field of a key
(`get_set`), and `or` takes the first value that is not blank (`get_or`).  A record is told by its
fields (`IdentityHints.ext_get`).
-/

namespace WidgetCompiler

open Text

/-- The fields of an identity. -/
inductive IdentityField
  | name
  | title
  | description
  | category
  | icon
deriving DecidableEq, Repr

namespace IdentityField

/-- All fields, in the order in which a record lists them. -/
def all : List IdentityField := [name, title, description, category, icon]

theorem mem_all (field : IdentityField) : field ∈ all := by cases field <;> decide

/-- The key under which a comment holds the field. -/
def key : IdentityField → Text
  | name => "name"
  | title => "title"
  | description => "description"
  | category => "category"
  | icon => "icon"

theorem key_injective : Function.Injective key := by
  intro field field' h
  cases field <;> cases field' <;> first | rfl | exact absurd h (by decide)

end IdentityField

/-! ## Values that are not blank -/

/-- A value that is not blank counts without the blanks around it. -/
theorem nonBlank?_some (u : Text) :
    nonBlank? (some u) = if allBlank u then none else some (trim u) := by
  cases hblank : allBlank u with
  | true =>
    have htrim : trim u = [] := trim_of_allBlank hblank
    simp [nonBlank?, htrim]
  | false =>
    have htrim : trim u ≠ [] := fun hnil =>
      Bool.false_ne_true (hblank.symm.trans (allBlank_of_trim_eq_nil hnil))
    simp [nonBlank?, Option.filter, htrim]

theorem nonBlank?_eq_some_iff {value : Option Text} {v : Text} :
    nonBlank? value = some v ↔ ∃ u ∈ value, allBlank u = false ∧ v = trim u := by
  cases value with
  | none => simp [nonBlank?]
  | some u =>
    rw [nonBlank?_some]
    cases hblank : allBlank u with
    | true => simp [hblank]
    | false => simp [hblank, eq_comm (a := v)]

theorem nonBlank?_eq_none_iff {value : Option Text} :
    nonBlank? value = none ↔ ∀ u ∈ value, allBlank u = true := by
  cases value with
  | none => simp [nonBlank?]
  | some u =>
    rw [nonBlank?_some]
    cases hblank : allBlank u <;> simp [hblank]

@[simp] theorem nonBlank?_nonBlank? (value : Option Text) :
    nonBlank? (nonBlank? value) = nonBlank? value := by
  cases value with
  | none => rfl
  | some u =>
    rw [nonBlank?_some]
    cases hblank : allBlank u with
    | true => rfl
    | false => simp [nonBlank?_some, hblank]

namespace IdentityHints

/-- The value of a field. -/
def get (h : IdentityHints) : IdentityField → Option Text
  | .name => h.name
  | .title => h.title
  | .description => h.description
  | .category => h.category
  | .icon => h.icon

@[simp] theorem get_empty (field : IdentityField) : ({} : IdentityHints).get field = none := by
  cases field <;> rfl

theorem ext_get {a b : IdentityHints} (h : ∀ field, a.get field = b.get field) : a = b := by
  have hname := h .name
  have htitle := h .title
  have hdescription := h .description
  have hcategory := h .category
  have hicon := h .icon
  cases a
  cases b
  simp_all [get]

/-- No other field has the key. -/
theorem set_eq_self {key : Text} (hkey : ∀ field : IdentityField, key ≠ field.key) (h : IdentityHints)
    (value : Text) : h.set key value = h := by
  have hname : key ≠ "name".toList := hkey .name
  have htitle : key ≠ "title".toList := hkey .title
  have hdescription : key ≠ "description".toList := hkey .description
  have hcategory : key ≠ "category".toList := hkey .category
  have hicon : key ≠ "icon".toList := hkey .icon
  rw [set, if_neg hname, if_neg htitle, if_neg hdescription, if_neg hcategory, if_neg hicon]

/-- A value is put under a key, and the fields with other keys stay. -/
theorem get_set (h : IdentityHints) (key value : Text) (field : IdentityField) :
    (h.set key value).get field = if key = field.key then some value else h.get field := by
  by_cases hkey : ∃ other : IdentityField, key = other.key
  · obtain ⟨other, rfl⟩ := hkey
    cases other <;> cases field <;> rfl
  · rw [set_eq_self (fun field hfield => hkey ⟨field, hfield⟩), if_neg fun hfield => hkey ⟨field, hfield⟩]

/-- The first value counts that is not blank. -/
theorem get_or (a b : IdentityHints) (field : IdentityField) :
    (a.or b).get field = (nonBlank? (a.get field)).or (nonBlank? (b.get field)) := by
  cases field <;> exact Option.orElse_eq_or ..

end IdentityHints

end WidgetCompiler
