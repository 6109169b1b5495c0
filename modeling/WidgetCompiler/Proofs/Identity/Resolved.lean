import WidgetCompiler.Proofs.Identity.Fields
import WidgetCompiler.Proofs.Identity.Names
import WidgetCompiler.Proofs.Text.Words

/-!
# A resolved identity can be used

Whatever little is known of an identity, `resolve` completes it: it fails only where a name is given
in which there is no letter and no digit (`resolveName_eq_error_iff`).  The identity that it gives then
has a name in its normal form, a class name, and a title, a description and a category with something
in them, of which title and description stand on one line (`usable_resolve`).
-/

namespace WidgetCompiler

open Text

/-- A name is given in which there is no letter and no digit. -/
def IdentityHints.Unnameable (h : IdentityHints) : Prop :=
  ∃ raw ∈ h.name, allBlank raw = false ∧ ∀ c ∈ raw, c.isAlphanum = false

instance (h : IdentityHints) : Decidable h.Unnameable :=
  inferInstanceAs (Decidable (∃ _ ∈ _, _ ∧ _))

/-- A widget can be generated under the identity. -/
structure Identity.Usable (m : Identity) : Prop where
  name : IsSnakeCase m.name
  normal : normalizeName m.name = some m.name
  named_by_title : normalizeName (titleOfName m.name) = some m.name
  className : IsClassName m.className
  title : allBlank m.title = false
  description : allBlank m.description = false
  category : allBlank m.category = false
  title_spaced : SingleSpaced m.title
  description_spaced : SingleSpaced m.description

section

variable {h : IdentityHints} {settings : Settings} {m : Identity} {e : NameError} {name : Text}

/-! ## Failures -/

theorem normalizeName_trim_eq_none_iff {raw : Text} :
    normalizeName (trim raw) = none ↔ ∀ c ∈ raw, c.isAlphanum = false := by
  rw [normalizeName_eq_none_iff]
  constructor
  · intro hall c hc
    refine Bool.eq_false_iff.2 fun halnum => ?_
    have hkept : c ∈ trim raw := mem_trim hc (isBlank_of_isAlphanum halnum)
    exact Bool.false_ne_true ((hall c hkept).symm.trans halnum)
  · have hwithin := trim_infix raw
    exact fun hall c hc => hall c (hwithin.subset hc)

/-- Only a name in which there is no letter and no digit makes it fail. -/
theorem resolveName_eq_error_iff : h.resolveName = .error e ↔
    ∃ raw ∈ h.name, allBlank raw = false ∧ (∀ c ∈ raw, c.isAlphanum = false) ∧ e = ⟨trim raw⟩ := by
  unfold IdentityHints.resolveName
  cases hname : nonBlank? h.name with
  | none =>
    have hblank := nonBlank?_eq_none_iff.1 hname
    refine iff_of_false (by simp) ?_
    rintro ⟨raw, hraw, hsome, -⟩
    exact Bool.false_ne_true (hsome.symm.trans (hblank raw hraw))
  | some given =>
    obtain ⟨raw, hraw, hsome, rfl⟩ := nonBlank?_eq_some_iff.1 hname
    have hunique : ∀ {other}, other ∈ h.name → other = raw := fun hother =>
      Option.some.inj (Eq.trans (Eq.symm hother) hraw)
    simp only
    cases hnormal : normalizeName (trim raw) with
    | none =>
      have hall := normalizeName_trim_eq_none_iff.1 hnormal
      constructor
      · intro he
        exact ⟨raw, hraw, hsome, hall, (Except.error.inj he).symm⟩
      · rintro ⟨other, hother, -, -, rfl⟩
        rw [hunique hother]
    | some name =>
      refine iff_of_false (by simp) ?_
      rintro ⟨other, hother, -, hall, -⟩
      rw [hunique hother, ← normalizeName_trim_eq_none_iff, hnormal] at hall
      exact Option.some_ne_none _ hall

theorem resolve_eq_error_iff : h.resolve settings = .error e ↔ h.resolveName = .error e := by
  unfold IdentityHints.resolve
  cases h.resolveName with
  | error e' => simp
  | ok name => simp

/-! ## What is resolved -/

/-- The title is not blank, whether it is given or made from the name. -/
theorem allBlank_resolveTitle (hname : IsSnakeCase name) : allBlank (h.resolveTitle name) = false := by
  unfold IdentityHints.resolveTitle
  cases htitle : nonBlank? h.title with
  | some title =>
    obtain ⟨raw, -, hblank, rfl⟩ := nonBlank?_eq_some_iff.1 htitle
    rwa [Option.getD_some, allBlank_trim]
  | none =>
    rw [Option.getD_none]
    split
    · decide
    · exact allBlank_titleOfName hname

theorem allBlank_getD_nonBlank? {value : Option Text} {other : Text} (hother : allBlank other = false) :
    allBlank ((nonBlank? value).getD other) = false := by
  cases hvalue : nonBlank? value with
  | none => exact hother
  | some v =>
    obtain ⟨u, -, hblank, rfl⟩ := nonBlank?_eq_some_iff.1 hvalue
    rwa [Option.getD_some, allBlank_trim]

/-- In checked settings the default category is not blank. -/
theorem allBlank_defaultCategory (hsettings : settings.check = .ok ()) :
    allBlank settings.defaultCategory = false := by
  unfold Settings.check at hsettings
  split_ifs at hsettings with hdomain hpackage hcategory
  exact Bool.eq_false_iff.2 hcategory

/-- What is resolved can be used. -/
theorem Identity.usable_of_resolve (hsettings : settings.check = .ok ())
    (hm : h.resolve settings = .ok m) : m.Usable := by
  unfold IdentityHints.resolve at hm
  split at hm
  · simp at hm
  · next name hname =>
    obtain rfl := Except.ok.inj hm
    obtain ⟨raw, hraw⟩ := exists_of_resolveName hname
    have hsnake := isSnakeCase_normalizeName hraw
    have htitle : allBlank (h.resolveTitle name) = false := allBlank_resolveTitle hsnake
    exact {
      name := hsnake
      normal := normalizeName_of_isSnakeCase hsnake
      named_by_title := normalizeName_titleOfName hsnake
      className := isClassName_className hsnake
      title := by rwa [allBlank_collapseBlanks]
      description := by
        rw [allBlank_collapseBlanks]
        exact allBlank_getD_nonBlank? (by simp [htitle])
      category := allBlank_getD_nonBlank? (allBlank_defaultCategory hsettings)
      title_spaced := singleSpaced_collapseBlanks _
      description_spaced := singleSpaced_collapseBlanks _ }

/-- With checked settings, whatever is known resolves to an identity that can be used, unless the
given name has no letter and no digit; and just of such texts there is no name. -/
theorem usable_resolve (hsettings : settings.check = .ok ()) (h : IdentityHints) :
    ((∃ e, h.resolve settings = .error e) ↔ h.Unnameable)
      ∧ (¬ h.Unnameable → ∃ m, h.resolve settings = .ok m ∧ m.Usable)
      ∧ ∀ raw, normalizeName raw = none ↔ ∀ c ∈ raw, c.isAlphanum = false := by
  have hfails : (∃ e, h.resolve settings = .error e) ↔ h.Unnameable := by
    simp only [resolve_eq_error_iff, resolveName_eq_error_iff]
    constructor
    · rintro ⟨e, raw, hraw, hblank, hall, -⟩
      exact ⟨raw, hraw, hblank, hall⟩
    · rintro ⟨raw, hraw, hblank, hall⟩
      exact ⟨_, raw, hraw, hblank, hall, rfl⟩
  refine ⟨hfails, fun hname => ?_, fun raw => normalizeName_eq_none_iff⟩
  cases hresolve : h.resolve settings with
  | error e => exact absurd (hfails.1 ⟨e, hresolve⟩) hname
  | ok m => exact ⟨m, rfl, Identity.usable_of_resolve hsettings hresolve⟩

end

/-- A title that begins with a digit, with a blank name and a category of blanks. -/
def columnHints : IdentityHints :=
  { name := some " \t", title := some "\u00a03 Spalten\n Größe ", category := some "\u2003" }

/-- The name comes from the title, its words from the ASCII letters and digits in it. -/
theorem usable_resolve_columns : ({} : Settings).check = .ok () ∧ ¬ columnHints.Unnameable
    ∧ ∃ m, columnHints.resolve {} = .ok m ∧ m.name = "widget_3_spalten_gr_e"
      ∧ m.title = "3 Spalten Größe" ∧ m.Usable := by
  have hsettings : ({} : Settings).check = .ok () := by decide
  have hname : ¬ columnHints.Unnameable := by decide
  obtain ⟨m, hm, husable⟩ := (usable_resolve hsettings columnHints).2.1 hname
  have hresolve : columnHints.resolve {} = .ok ⟨"widget_3_spalten_gr_e", "3 Spalten Größe",
      "3 Spalten Größe widget", "general", "eicon-code"⟩ := by decide
  obtain rfl := Except.ok.inj (hm.symm.trans hresolve)
  exact ⟨hsettings, hname, _, hm, rfl, rfl, husable⟩

end WidgetCompiler
