import WidgetCompiler.Proofs.Identity.Fields

/-!
# Which source of an identity counts

Filling the gaps of one record from another is associative, and the empty record changes nothing but
the blanks around values (`IdentityHints.or_assoc`, `or_empty`, `empty_or`).  So a list of records can
be merged in any grouping (`mergeAll_append`), and each field of the result is the first value in the
list that is not blank (`get_mergeAll`).

What all sources together know is such a merge: the explicit record, the comment, and what the service
proposes if the first two lack a name or a title (`gatherHints_eq_mergeAll`).  A service that is not
needed changes nothing, and one that fails is as none (`resolveIdentity_priority`).
-/

namespace WidgetCompiler

open Text

namespace IdentityHints

variable {a b c : IdentityHints} {field : IdentityField}

/-! ## Filling gaps -/

/-- The record without blank values and without the blanks around the others. -/
def trimmed (h : IdentityHints) : IdentityHints :=
  { name := nonBlank? h.name
    title := nonBlank? h.title
    description := nonBlank? h.description
    category := nonBlank? h.category
    icon := nonBlank? h.icon }

@[simp] theorem get_trimmed (h : IdentityHints) (field : IdentityField) :
    h.trimmed.get field = nonBlank? (h.get field) := by cases field <;> rfl

@[simp] theorem trimmed_empty : ({} : IdentityHints).trimmed = {} := rfl

theorem nonBlank?_or (u v : Option Text) :
    nonBlank? ((nonBlank? u).or (nonBlank? v)) = (nonBlank? u).or (nonBlank? v) := by
  cases hu : nonBlank? u with
  | none => rw [Option.none_or, nonBlank?_nonBlank?]
  | some t => rw [Option.some_or, ← hu, nonBlank?_nonBlank?]

@[simp] theorem trimmed_or (a b : IdentityHints) : (a.or b).trimmed = a.or b :=
  ext_get fun field => by rw [get_trimmed, get_or, nonBlank?_or]

theorem empty_or (h : IdentityHints) : ({} : IdentityHints).or h = h.trimmed :=
  ext_get fun field => by rw [get_or, get_empty, get_trimmed]; rfl

theorem or_empty (h : IdentityHints) : h.or {} = h.trimmed :=
  ext_get fun field => by rw [get_or, get_empty, get_trimmed]; exact Option.or_none

theorem or_assoc (a b c : IdentityHints) : (a.or b).or c = a.or (b.or c) := by
  refine ext_get fun field => ?_
  calc ((a.or b).or c).get field
      = ((nonBlank? (a.get field)).or (nonBlank? (b.get field))).or (nonBlank? (c.get field)) := by
        rw [get_or, get_or, nonBlank?_or]
    _ = (nonBlank? (a.get field)).or ((nonBlank? (b.get field)).or (nonBlank? (c.get field))) :=
        Option.or_assoc
    _ = (a.or (b.or c)).get field := by rw [get_or, get_or, nonBlank?_or]

/-! ## Lists of records -/

/-- The records merged, of which the first counts most. -/
def mergeAll (hs : List IdentityHints) : IdentityHints := hs.foldr or {}

@[simp] theorem trimmed_mergeAll (hs : List IdentityHints) : (mergeAll hs).trimmed = mergeAll hs := by
  cases hs with
  | nil => rfl
  | cons h hs => exact trimmed_or h (mergeAll hs)

/-- However the records are grouped, they merge into the same. -/
theorem mergeAll_append (as bs : List IdentityHints) :
    mergeAll (as ++ bs) = (mergeAll as).or (mergeAll bs) := by
  induction as with
  | nil => exact ((empty_or _).trans (trimmed_mergeAll bs)).symm
  | cons a as ih =>
    calc mergeAll (a :: as ++ bs) = a.or (mergeAll (as ++ bs)) := rfl
      _ = a.or ((mergeAll as).or (mergeAll bs)) := by rw [ih]
      _ = (mergeAll (a :: as)).or (mergeAll bs) := (or_assoc _ _ _).symm

end IdentityHints

/-- The first value of a field that is not blank, without the blanks around it. -/
def firstKnown (field : IdentityField) (sources : List IdentityHints) : Option Text :=
  sources.findSome? fun h => (h.get field).bind fun v => if allBlank v then none else some (trim v)

theorem firstKnown_cons (field : IdentityField) (h : IdentityHints) (hs : List IdentityHints) :
    firstKnown field (h :: hs) = (nonBlank? (h.get field)).or (firstKnown field hs) := by
  have hvalue : nonBlank? (h.get field)
      = (h.get field).bind fun v => if allBlank v then none else some (trim v) := by
    cases h.get field with
    | none => rfl
    | some v => exact nonBlank?_some v
  rw [hvalue, firstKnown, firstKnown, List.findSome?_cons]
  split
  · next hsome => rw [hsome, Option.some_or]
  · next hnone => rw [hnone, Option.none_or]

theorem get_mergeAll (hs : List IdentityHints) (field : IdentityField) :
    (IdentityHints.mergeAll hs).get field = firstKnown field hs := by
  induction hs with
  | nil => exact IdentityHints.get_empty field
  | cons h hs ih =>
    calc (IdentityHints.mergeAll (h :: hs)).get field
        = (nonBlank? (h.get field)).or (nonBlank? ((IdentityHints.mergeAll hs).get field)) :=
          IdentityHints.get_or h _ field
      _ = (nonBlank? (h.get field)).or (firstKnown field hs) := by
        rw [← IdentityHints.get_trimmed (IdentityHints.mergeAll hs), IdentityHints.trimmed_mergeAll, ih]
      _ = firstKnown field (h :: hs) := (firstKnown_cons field h hs).symm

/-! ## The sources -/

variable {explicit : IdentityHints} {markup style behavior : Text} {inference : Option Inference}

/-- The records that are there without a service. -/
def givenSources (explicit : IdentityHints) (markup : Text) : List IdentityHints :=
  [explicit, (hintsInMarkup? markup).getD {}]

/-- Both the name and the title can be taken from the records. -/
def Identified (sources : List IdentityHints) : Prop :=
  (firstKnown .name sources).isSome = true ∧ (firstKnown .title sources).isSome = true

instance (sources : List IdentityHints) : Decidable (Identified sources) :=
  inferInstanceAs (Decidable (_ ∧ _))

/-- The records that take part, in the order in which they count. -/
def consulted (explicit : IdentityHints) (markup style behavior : Text)
    (inference : Option Inference) : List IdentityHints :=
  if Identified (givenSources explicit markup) then givenSources explicit markup
  else givenSources explicit markup
    ++ (inference.bind fun service => service markup style behavior).toList

theorem knownHints_eq_mergeAll (explicit : IdentityHints) (markup : Text) :
    knownHints explicit markup = IdentityHints.mergeAll (givenSources explicit markup) := by
  calc knownHints explicit markup
      = (explicit.or ((hintsInMarkup? markup).getD {})).or {} := by
        rw [IdentityHints.or_empty, IdentityHints.trimmed_or]
        rfl
    _ = explicit.or (((hintsInMarkup? markup).getD {}).or {}) := IdentityHints.or_assoc _ _ _
    _ = IdentityHints.mergeAll (givenSources explicit markup) := rfl

theorem hasIdentity_mergeAll (sources : List IdentityHints) :
    (IdentityHints.mergeAll sources).hasIdentity = true ↔ Identified sources := by
  have hfield (field : IdentityField) :
      nonBlank? ((IdentityHints.mergeAll sources).get field) = firstKnown field sources := by
    rw [← IdentityHints.get_trimmed, IdentityHints.trimmed_mergeAll, get_mergeAll]
  have hname : nonBlank? (IdentityHints.mergeAll sources).name = firstKnown .name sources := hfield .name
  have htitle : nonBlank? (IdentityHints.mergeAll sources).title = firstKnown .title sources :=
    hfield .title
  rw [IdentityHints.hasIdentity, hname, htitle, Bool.and_eq_true, Identified]

/-- What is gathered is what the records that take part know. -/
theorem gatherHints_eq_mergeAll :
    gatherHints explicit markup style behavior inference
      = IdentityHints.mergeAll (consulted explicit markup style behavior inference) := by
  have hidentity := hasIdentity_mergeAll (givenSources explicit markup)
  simp only [gatherHints, knownHints_eq_mergeAll, consulted]
  by_cases hknown : Identified (givenSources explicit markup)
  · rw [if_pos (hidentity.2 hknown), if_pos hknown]
  · rw [if_neg fun h => hknown (hidentity.1 h), if_neg hknown, IdentityHints.mergeAll_append]
    have hnothing : (IdentityHints.mergeAll (givenSources explicit markup)).or (IdentityHints.mergeAll [])
        = IdentityHints.mergeAll (givenSources explicit markup) :=
      (IdentityHints.or_empty _).trans (IdentityHints.trimmed_mergeAll _)
    cases inference with
    | none => exact hnothing.symm
    | some service =>
      simp only [Option.bind_some]
      cases service markup style behavior with
      | none => exact hnothing.symm
      | some proposed =>
        calc (IdentityHints.mergeAll (givenSources explicit markup)).or proposed
            = ((IdentityHints.mergeAll (givenSources explicit markup)).or proposed).or {} := by
              rw [IdentityHints.or_empty, IdentityHints.trimmed_or]
          _ = _ := IdentityHints.or_assoc _ _ _

/-- Each field is the first value that is not blank, first of the explicit record, then of the
comment, then of what a service proposes that is needed and does not fail.  A service that is not
needed cannot change the outcome, and one that fails is as none.  Filling gaps is associative and the
empty record only trims, so that the grouping of the sources does not matter. -/
theorem resolveIdentity_priority (explicit : IdentityHints) (markup style behavior : Text)
    (settings : Settings) :
    (∀ inference,
        resolveIdentity explicit markup style behavior inference settings
          = (gatherHints explicit markup style behavior inference).resolve settings
        ∧ ∀ field, (gatherHints explicit markup style behavior inference).get field
          = firstKnown field (consulted explicit markup style behavior inference))
      ∧ (Identified (givenSources explicit markup) → ∀ inference inference',
        resolveIdentity explicit markup style behavior inference settings
          = resolveIdentity explicit markup style behavior inference' settings)
      ∧ (∀ service : Inference, service markup style behavior = none →
        resolveIdentity explicit markup style behavior (some service) settings
          = resolveIdentity explicit markup style behavior none settings)
      ∧ (∀ a b c : IdentityHints, (a.or b).or c = a.or (b.or c))
      ∧ (∀ h : IdentityHints, ({} : IdentityHints).or h = h.trimmed ∧ h.or {} = h.trimmed)
      ∧ ∀ as bs : List IdentityHints, IdentityHints.mergeAll (as ++ bs)
          = (IdentityHints.mergeAll as).or (IdentityHints.mergeAll bs) := by
  refine ⟨fun inference => ⟨rfl, fun field => ?_⟩, fun hknown inference inference' => ?_,
    fun service hfails => ?_, IdentityHints.or_assoc,
    fun h => ⟨IdentityHints.empty_or h, IdentityHints.or_empty h⟩, IdentityHints.mergeAll_append⟩
  · rw [gatherHints_eq_mergeAll, get_mergeAll]
  · have hsame (inference : Option Inference) : consulted explicit markup style behavior inference
        = givenSources explicit markup := if_pos hknown
    rw [resolveIdentity, resolveIdentity, gatherHints_eq_mergeAll, gatherHints_eq_mergeAll, hsame, hsame]
  · have hsame : consulted explicit markup style behavior (some service)
        = consulted explicit markup style behavior none := by
      rw [consulted, consulted, Option.bind_some, hfails, Option.bind_none]
    rw [resolveIdentity, resolveIdentity, gatherHints_eq_mergeAll, gatherHints_eq_mergeAll, hsame]

/-- A record with a name and a blank title. -/
def pricingHints : IdentityHints := { name := some " Pricing ", title := some " \n" }

/-- A page that has the title in its comment. -/
def pricingMarkup : Text := "<!-- WIDGET_META\nTitle : Plans\nicon:\n--><p>9 a month</p>"

/-- A service that always proposes the same. -/
def proposesCards : Inference := fun _ _ _ => some { name := some "cards", icon := some "eicon-card" }

/-- With the name and the title from the first two sources, the service is not asked; without them,
one that fails is left out. -/
theorem resolveIdentity_priority_pricing :
    Identified (givenSources pricingHints pricingMarkup)
      ∧ resolveIdentity pricingHints pricingMarkup [] [] (some proposesCards) {}
        = resolveIdentity pricingHints pricingMarkup [] [] none {}
      ∧ resolveIdentity {} pricingMarkup [] [] (some fun _ _ _ => none) {}
        = resolveIdentity {} pricingMarkup [] [] none {} := by
  have hcomment : hintsInMarkup? pricingMarkup = some { title := some "Plans" } := by decide +kernel
  have hknown : Identified (givenSources pricingHints pricingMarkup) := by
    rw [givenSources, hcomment]
    decide
  exact ⟨hknown, (resolveIdentity_priority pricingHints pricingMarkup [] [] {}).2.1 hknown _ _,
    (resolveIdentity_priority {} pricingMarkup [] [] {}).2.2.1 (fun _ _ _ => none) rfl⟩

end WidgetCompiler
