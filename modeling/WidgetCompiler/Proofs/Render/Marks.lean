import Mathlib
import WidgetCompiler.Proofs.Markup.Escaping
import WidgetCompiler.Proofs.Render.Uses
import WidgetCompiler.Render.Preview

/-!
# Values bring no markup into a preview

Tags and quoted attributes are told by four characters, the angle brackets and the quotes.  No way of
escaping leaves one of them in a value (`marks_apply`), so those of a preview all come from literal
markup, and which literals are shown is decided by the tests alone (`marks_previewParts`).  Two sets
of values that no test tells apart are therefore shown with the same marks (`marks_preview_eq`).
-/

namespace WidgetCompiler.Render

open Text Markup

/-! ## Marks -/

/-- Whether a character can begin or end a tag or a quoted attribute. -/
def isMark (c : Char) : Bool := "<>\"'".toList.contains c

/-- The characters of a text that make it markup, in their order. -/
def marks (t : Text) : Text := t.filter isMark

@[simp] theorem marks_append (s t : Text) : marks (s ++ t) = marks s ++ marks t :=
  List.filter_append s t

@[simp] theorem marks_nil : marks [] = [] := rfl

theorem marks_eq_nil_iff {t : Text} : marks t = [] ↔ ∀ c ∈ "<>\"'".toList, c ∉ t := by
  simp only [marks, isMark, List.filter_eq_nil_iff, List.contains_iff_mem]
  exact ⟨fun h c hc ht => h c ht hc, fun h c ht hc => h c hc ht⟩

/-- No mark is left of an address. -/
theorem not_mem_escapeAddress {t : Text} {c : Char} (hc : c ∈ "<>\"'".toList) :
    c ∉ escapeAddress t := by
  have hspecial : ∀ c ∈ "<>\"'".toList, c ∉ (['&'] : Text) ∧ c ∉ ("&#038;" : Text)
      ∧ c ∉ ("&#039;" : Text) ∧ c ∉ ("%22" : Text) ∧ c ∉ ("%20" : Text) := by decide
  obtain ⟨hbare, hamp, hapos, hquot, hspace⟩ := hspecial c hc
  induction t with
  | nil => simp [escapeAddress]
  | cons d t ih =>
    rw [escapeAddress]
    refine List.mem_append.not.2 (not_or.2 ⟨?_, ih⟩)
    split
    · split
      · exact hbare
      · exact hamp
    split
    · exact hapos
    split
    · exact hquot
    split
    · exact hspace
    split
    · exact List.not_mem_nil
    rintro hm
    obtain rfl := List.mem_singleton.1 hm
    simp_all

/-- However a value is escaped, it has no marks. -/
theorem marks_apply (e : Escape) (t : Text) : marks (e.apply t) = [] := by
  refine marks_eq_nil_iff.2 fun c hc => ?_
  cases e with
  | html => exact not_mem_escapeText hc
  | attr => exact not_mem_escapeText hc
  | url => exact not_mem_escapeAddress hc

/-! ## Literal markup on the branches that are taken -/

/-- The literal markup of parts, given which names pass their tests. -/
def literalsIn (passes : Text → Bool) : List Part → Text
  | [] => []
  | .markup t :: ps => t ++ literalsIn passes ps
  | .echo _ _ :: ps => literalsIn passes ps
  | .linkAttributes _ :: ps => literalsIn passes ps
  | .ifSet var body :: ps =>
    (if passes var then literalsIn passes body else []) ++ literalsIn passes ps

/-- Only the names that are tested matter. -/
theorem literalsIn_congr {passes passes' : Text → Bool} {ps : List Part}
    (h : ∀ var, .test var ∈ usesIn ps → passes var = passes' var) :
    literalsIn passes ps = literalsIn passes' ps := by
  fun_induction usesIn ps with
  | case1 => rw [literalsIn, literalsIn]
  | case2 t ps ih => rw [literalsIn, literalsIn, ih h]
  | case3 value escape ps ih =>
    rw [literalsIn, literalsIn, ih fun var hvar => h var (List.mem_cons_of_mem _ hvar)]
  | case4 name ps ih =>
    rw [literalsIn, literalsIn, ih fun var hvar => h var (List.mem_cons_of_mem _ hvar)]
  | case5 name body ps ihbody ih =>
    have hbody := ihbody fun var hvar =>
      h var (List.mem_cons_of_mem _ (List.mem_append_left _ hvar))
    have hps := ih fun var hvar => h var (List.mem_cons_of_mem _ (List.mem_append_right _ hvar))
    rw [literalsIn, literalsIn, hbody, hps, h name List.mem_cons_self]

/-- Whether a name passes a test when the preview is made. -/
def slotPasses (env : Dictionary Slot) (var : Text) : Bool := !(slotOf env var).asText.isEmpty

/-- What is shown of parts has the marks of its literal markup and no others. -/
theorem marks_previewParts (values : Dictionary DefaultValue) (env : Dictionary Slot)
    (ps : List Part) :
    marks (previewParts values env ps) = marks (literalsIn (slotPasses env) ps) := by
  fun_induction literalsIn (slotPasses env) ps with
  | case1 => rw [previewParts]
  | case2 t ps ih => rw [previewParts, marks_append, ih, marks_append]
  | case3 value escape ps ih =>
    rw [previewParts, marks_append, marks_apply, List.nil_append, ih]
  | case4 name ps ih => rw [previewParts, ih]
  | case5 name body ps ihbody ih =>
    rw [previewParts, marks_append, marks_append, ih]
    congr 1
    cases h : (slotOf env name).asText.isEmpty <;> simp [slotPasses, h, ihbody]

/-- Whether a name of the plan passes a test when the controls hold the given values. -/
def Plan.passes (p : Plan) (values : Dictionary DefaultValue) (var : Text) : Bool :=
  slotPasses (environment values p.bindings) var

/-! ## Two sets of values -/

section

variable {p : Plan} {values values' : Dictionary DefaultValue}

/-- Values that no test of the plan tells apart are shown with the same marks, which are those of the
literal markup on the branches that are taken. -/
theorem marks_preview_eq
    (h : ∀ var, .test var ∈ usesIn p.parts → p.passes values var = p.passes values' var) :
    marks (p.preview values) = marks (p.preview values')
      ∧ marks (p.preview values) = marks (literalsIn (p.passes values) p.parts) := by
  have hshown (values : Dictionary DefaultValue) :
      marks (p.preview values) = marks (literalsIn (p.passes values) p.parts) :=
    marks_previewParts values _ p.parts
  refine ⟨?_, hshown values⟩
  calc marks (p.preview values)
      = marks (literalsIn (p.passes values) p.parts) := hshown values
    _ = marks (literalsIn (p.passes values') p.parts) := by rw [literalsIn_congr h]
    _ = marks (p.preview values') := (hshown values').symm

end

/-- A text within a link, if there is an address. -/
def linkedText : Plan where
  bindings := [⟨"link_0", .linkOrNull "p_0_link"⟩]
  parts := [
    .ifSet "link_0" [.markup "<a href=\"", .echo (.url "link_0") .url, .markup "\">"],
    .echo (.setting "p_0_text") .html,
    .ifSet "link_0" [.markup "</a>"]]

/-- Neither tags nor quotes in the text and in the address get out of the link. -/
theorem marks_preview_linkedText :
    let harmless : Dictionary DefaultValue :=
      [("p_0_link", .url "/shop"), ("p_0_text", .text "Our shop")]
    let hostile : Dictionary DefaultValue :=
      [("p_0_link", .url "\"><script>"), ("p_0_text", .text "</a><b title='x'>&lt;")]
    (∀ var, .test var ∈ usesIn linkedText.parts →
        linkedText.passes harmless var = linkedText.passes hostile var)
      ∧ marks (linkedText.preview hostile) = marks (linkedText.preview harmless)
      ∧ marks (linkedText.preview hostile) = "<\"\"><>" := by
  intro harmless hostile
  have htests : ∀ var, .test var ∈ usesIn linkedText.parts →
      linkedText.passes harmless var = linkedText.passes hostile var := by
    intro var hvar
    obtain rfl : var = "link_0".toList := by simpa [usesIn, linkedText] using hvar
    decide
  obtain ⟨hsame, -⟩ := marks_preview_eq htests
  exact ⟨htests, hsame.symm, by cbv⟩

end WidgetCompiler.Render
