import Mathlib
import WidgetCompiler.Proofs.Catalog.Accepted
import WidgetCompiler.Proofs.Control.Defaults
import WidgetCompiler.Proofs.Render.Uses
import WidgetCompiler.Proofs.Render.Preview
import WidgetCompiler.Proofs.Widget.CustomCode
import WidgetCompiler.Validation.Markers

/-!
# Plans are closed

A plan refers to nothing that is not there.  Each of its names is bound once, and each id under
which it looks something up is the id of a control that the widget registers (`Plan.Closed`).  This
holds of the plan of any markup for any elements, and so it does of the code that follows the plan;
where the catalog has passed its check, all these ids are identifiers (`closed_planRender`).
-/

namespace WidgetCompiler

open Text Markup

/-! ## What is looked up -/

namespace Render

/-- The id under which a source looks up the settings. -/
def Source.id : Source → Text
  | .setting id => id
  | .settingOr id _ => id
  | .linkOrNull id => id
  | .urlOr id _ => id

/-- The id under which a value is looked up in the settings. -/
def Value.id? : Value → Option Text
  | .setting id => some id
  | .var _ => none
  | .url _ => none

/-- All ids under which a plan looks up the settings. -/
def Plan.ids (p : Plan) : List Text :=
  p.bindings.map (·.source.id) ++ (valuesIn p.parts).filterMap Value.id?

/-- All names in the parts of a plan. -/
def Plan.names (p : Plan) : List Text := (valuesIn p.parts).filterMap Value.name?

/-- A plan binds no name twice and each of its names once, and looks up nothing but the given
ids. -/
structure Plan.Closed (p : Plan) (ids : List Text) : Prop where
  distinct : (p.bindings.map (·.var)).Nodup
  bound : ∀ name ∈ p.names, ∃! b, b ∈ p.bindings ∧ b.var = name
  registered : ∀ id ∈ p.ids, id ∈ ids

theorem Source.Drawn.id {P Q : Text → Prop} {s : Source} (h : s.Drawn P Q) : P s.id := by
  cases s with
  | setting id => exact h
  | settingOr id fallback => exact h.1
  | linkOrNull id => exact h
  | urlOr id fallback => exact h.1

/-- The ids in a plan are the ids in what it is drawn from. -/
theorem Drawn.ids {N P Q : Text → Prop} {p : Plan} (h : Drawn N P Q p.bindings p.parts) :
    ∀ id ∈ p.ids, P id := by
  intro id hid
  rcases List.mem_append.1 hid with hid | hid
  · obtain ⟨b, hb, rfl⟩ := List.mem_map.1 hid
    exact (h.bindings b hb).2.id
  · obtain ⟨v, hv, hvid⟩ := List.mem_filterMap.1 hid
    have hdrawn := h.values v hv
    cases v with
    | setting i =>
      obtain rfl : i = id := Option.some.inj hvid
      exact hdrawn
    | var n => simp [Value.id?] at hvid
    | url n => simp [Value.id?] at hvid

/-- Each name that stands in parts is looked up there. -/
theorem exists_use {ps : List Part} {v : Value} (hv : v ∈ valuesIn ps) :
    .echo v ∈ usesIn ps ∨ ∃ name, v = .var name ∧ (.attributes name ∈ usesIn ps
      ∨ .test name ∈ usesIn ps) := by
  fun_induction usesIn ps with
  | case1 => simp [valuesIn] at hv
  | case2 t ps ih => exact ih (by simpa [valuesIn] using hv)
  | case3 value escape ps ih =>
    rcases List.mem_cons.1 (by simpa [valuesIn] using hv) with rfl | hv
    · simp
    · have := ih hv
      grind
  | case4 var ps ih =>
    rcases List.mem_cons.1 (by simpa [valuesIn] using hv) with rfl | hv
    · simp
    · have := ih hv
      grind
  | case5 var body ps ihbody ih =>
    rw [valuesIn] at hv
    rcases List.mem_cons.1 hv with rfl | hv
    · simp
    · rcases List.mem_append.1 hv with hv | hv
      · have := ihbody hv
        grind
      · have := ih hv
        grind

/-- What fits together binds the names in the parts. -/
theorem Coherent.exists_binding {text link : Text → Prop} {p : Plan}
    (h : Coherent text link p.bindings p.parts) :
    ∀ name ∈ p.names, ∃ b ∈ p.bindings, b.var = name := by
  intro name hname
  obtain ⟨v, hv, hvname⟩ := List.mem_filterMap.1 hname
  rcases exists_use hv with huse | ⟨n, rfl, huse⟩
  · have hgrounded := h.grounded _ huse
    cases v with
    | setting id => simp [Value.name?] at hvname
    | var n =>
      obtain rfl : n = name := Option.some.inj hvname
      obtain ⟨b, hb, hvar, -⟩ := hgrounded
      exact ⟨b, hb, hvar⟩
    | url n =>
      obtain rfl : n = name := Option.some.inj hvname
      obtain ⟨b, hb, hvar, -⟩ := hgrounded
      exact ⟨b, hb, hvar⟩
  · obtain rfl : n = name := Option.some.inj hvname
    rcases huse with huse | huse
    · obtain ⟨b, hb, hvar, -⟩ := h.grounded _ huse
      exact ⟨b, hb, hvar⟩
    · obtain ⟨b, hb, hvar, -⟩ := h.grounded _ huse
      exact ⟨b, hb, hvar⟩

end Render

/-- The ids under which the method that shows a widget looks up the settings behind its plan. -/
def customIds : List Text :=
  (Pattern.findAll Validation.settingsLookup customCode).map (·.value)

theorem customIds_eq : customIds = ["custom_css", "custom_css", "custom_js", "custom_js"] := by
  decide +kernel

/-! ## What is registered -/

theorem controlIdsOf_widget (bs : List BoundElement) (css js : Text) :
    controlIdsOf (bs.flatMap elementSections ++ [customCodeSection css js])
      = (bs.flatMap fun b => b.template.fieldIds.map b.controlId)
        ++ (["custom_css", "custom_js"] : List Text) := by
  rw [controlIdsOf_append, controlIdsOf_elements]
  rfl

/-- What an element supplies to a plan is registered for it. -/
theorem supplies_registered {bs : List BoundElement} {b : BoundElement} (hb : b ∈ bs)
    (css js : Text) :
    Render.Supplies (fun _ => True)
      (· ∈ controlIdsOf (bs.flatMap elementSections ++ [customCodeSection css js]))
      (fun _ => True) b where
  locals _ _ := trivial
  control {field id} hid := by
    have hfield : b.template.hasField field = true ∧ b.controlId field = id := by
      simpa [BoundElement.control?] using hid
    obtain ⟨f, hf, rfl⟩ := Template.exists_of_hasField hfield.1
    rw [controlIdsOf_widget, ← hfield.2]
    exact List.mem_append_left _
      (List.mem_flatMap.2 ⟨b, hb, List.mem_map_of_mem (List.mem_map_of_mem hf)⟩)
  tag := trivial
  attributes _ := trivial
  empty := trivial
  hash := trivial

/-- All that a widget registers with an accepted catalog has an identifier for its id. -/
theorem isIdentifier_controlIdsOf {c : Catalog} {yaml : Text} (h : Catalog.ofYaml yaml = .ok c)
    (forest : List Element) (css js : Text) :
    ∀ id ∈ controlIdsOf ((bindForest c forest).flatMap elementSections
      ++ [customCodeSection css js]), isIdentifier id = true := by
  intro id hid
  rw [controlIdsOf_widget] at hid
  rcases List.mem_append.1 hid with hid | hid
  · obtain ⟨b, hb, hid⟩ := List.mem_flatMap.1 hid
    obtain ⟨fieldId, hfield, rfl⟩ := List.mem_map.1 hid
    have htemplate : b.template.Named := (of_mem_bindFrom hb).1 ▸ Catalog.named_of_ofYaml h _
    exact isIdentifier_controlId _ _ ((isIdentifier_iff _).1 (htemplate fieldId hfield)).2
  · have : ∀ id ∈ (["custom_css", "custom_js"] : List Text), isIdentifier id = true := by decide
    exact this id hid

/-! ## Closed plans -/

namespace Render

/-- The plan of any markup is closed over the controls of the widget, and so is what the method
runs behind it.  If the catalog comes from a document, the ids are identifiers. -/
theorem closed_planRender (markup : Text) (c : Catalog) (forest : List Element) (css js : Text) :
    let bound := bindForest c forest
    let plan := planRender markup bound
    let registered := controlIdsOf (bound.flatMap elementSections ++ [customCodeSection css js])
    plan.Closed registered
      ∧ (∃ front, renderBody plan = front ++ customCode)
      ∧ customIds = ["custom_css", "custom_css", "custom_js", "custom_js"]
      ∧ customIds ⊆ registered
      ∧ ∀ yaml, Catalog.ofYaml yaml = .ok c →
        ∀ id ∈ plan.ids ++ customIds, isIdentifier id = true := by
  intro bound plan registered
  have hdrawn : Drawn (fun _ => True) (· ∈ registered) (fun _ => True) plan.bindings plan.parts :=
    drawn_planRender fun b hb => supplies_registered hb css js
  have hcoherent : Coherent (fun _ => True) (fun _ => True) plan.bindings plan.parts :=
    coherent_planRender fun _ _ => ⟨fun _ _ => trivial, fun _ _ => trivial⟩
  have hdistinct : (plan.bindings.map (·.var)).Nodup :=
    nodup_bindings (nodup_index_bindForest c forest)
  have hclosed : plan.Closed registered := by
    refine ⟨hdistinct, fun name hname => ?_, hdrawn.ids⟩
    obtain ⟨b, hb, rfl⟩ := hcoherent.exists_binding name hname
    exact ⟨b, ⟨hb, rfl⟩, fun b' hb' => List.inj_on_of_nodup_map hdistinct hb'.1 hb hb'.2⟩
  have hcustom : customIds ⊆ registered := by
    have hids : customIds ⊆ (["custom_css", "custom_js"] : List Text) := by
      rw [customIds_eq]
      decide
    intro id hid
    simp only [registered, controlIdsOf_widget]
    exact List.mem_append_right _ (hids hid)
  refine ⟨hclosed, ⟨_, renderBody_eq plan⟩, customIds_eq, hcustom, fun yaml hyaml id hid => ?_⟩
  refine isIdentifier_controlIdsOf hyaml forest css js id ?_
  exact (List.mem_append.1 hid).elim (hclosed.registered id) (hcustom ·)

end Render

/-! ## A catalog of links -/

/-- The document of a catalog that has links only. -/
def linkCatalogYaml : Text :=
  "fallback: a\ntemplates: \x7ba: \x7btag: a, content: ["
    ++ "\x7bid: link_text, label: T, type: TEXT\x7d, "
    ++ "\x7bid: link_url, label: U, type: URL\x7d]\x7d\x7d\n"

/-- The catalog in that document. -/
def linkCatalog : Catalog :=
  ⟨"a", [("a", { tag := "a", content := [{ id := "link_text", label := "T", kind := .text },
    { id := "link_url", label := "U", kind := .url }] })]⟩

theorem ofYaml_linkCatalogYaml : Catalog.ofYaml linkCatalogYaml = .ok linkCatalog := by
  have hread : (Yaml.Document.read? linkCatalogYaml).bind (Catalog.partsOfValue? ·.value)
      = some (linkCatalog.fallback, linkCatalog.templates) := by
    decide +kernel
  have hcheck : (Catalog.assemble linkCatalog.fallback linkCatalog.templates).check = .ok () := by
    decide +kernel
  rw [Catalog.ofYaml, hread]
  simp only [Catalog.make?, hcheck]
  rfl

namespace Render

/-- A link without an address. -/
def bareLink : List Element := [Element.make "a" [] none (some "Hi") [] []]

theorem planRender_bareLink :
    let plan := planRender "<a>Hi</a>" (bindForest linkCatalog bareLink)
    plan.ids = ["a_0_link_url", "a_0_link_text"] ∧ plan.names = ["link_url_0", "link_url_0"] := by
  have htags : scanStartTags "<a>Hi</a>" = [⟨"a", "a", 0, 3, [], false⟩] := by decide +kernel
  rw [planRender, htags]
  constructor
  · cbv
  · cbv

/-- The plan of a link binds one name and looks up two ids. -/
theorem closed_planRender_bareLink :
    let bound := bindForest linkCatalog bareLink
    let plan := planRender "<a>Hi</a>" bound
    Catalog.ofYaml linkCatalogYaml = .ok linkCatalog
      ∧ plan.Closed (controlIdsOf (bound.flatMap elementSections ++ [customCodeSection [] []]))
      ∧ plan.ids = ["a_0_link_url", "a_0_link_text"] ∧ plan.names = ["link_url_0", "link_url_0"]
      ∧ ∀ id ∈ plan.ids ++ customIds, isIdentifier id = true := by
  intro bound plan
  have hclosed := closed_planRender "<a>Hi</a>" linkCatalog bareLink [] []
  exact ⟨ofYaml_linkCatalogYaml, hclosed.1, planRender_bareLink.1, planRender_bareLink.2,
    hclosed.2.2.2.2 _ ofYaml_linkCatalogYaml⟩

end Render

end WidgetCompiler
