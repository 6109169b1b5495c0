import WidgetCompiler.Proofs.Catalog.Inheritance
import WidgetCompiler.Widget.Basic
import Mathlib.Data.List.Pairwise

/-!
# Ids of controls and sections

A widget registers its controls and its sections under ids that are made of a tag, of the number of
an element, and of the id of a field or the name of a tab.  The number can be found in an id as long
as no digits stand behind it, and so ids tell elements and fields apart (`controlId_separates`): no two
elements share one, none is taken by the widget's own code, and no two sections share one.

Within one element the ids of its controls differ exactly as far as those of the fields do
(`nodup_controlIds_iff`).  The check of a catalog looks at one tab of a template at a time, and what a
template inherits stays in its tab, so an id cannot stand twice in a tab.  It can stand in two tabs,
and there it does so exactly if two templates of the line have it in different tabs (`KeepTabs`).
`registers_once` says what follows for the controls of an element and for their defaults, and
`registers_twice` shows a catalog that is accepted although an id stands in two tabs.
-/

namespace WidgetCompiler

open Text Markup

variable {b : BoundElement} {bs : List BoundElement} {more : List Section} {ts : List Template}

/-! ## Sections -/

/-- The ids of sections are made like those of controls, of the names of tabs. -/
theorem id_tabSection (b : BoundElement) (tab : Tab) :
    (tabSection b tab).id = "section_".toList ++ b.controlId tab.name := by
  unfold tabSection BoundElement.controlId controlId
  simp only [List.append_assoc]

theorem Tab.digitFree_name (tab : Tab) : digitFree tab.name = true := by
  cases tab <;> decide

theorem Tab.name_injective : Function.Injective Tab.name := by
  intro tab tab' h
  cases tab <;> cases tab' <;> first | rfl | exact absurd h (by decide)

/-- The number and the tab can be read off the id of a section. -/
theorem id_tabSection_inj {b' : BoundElement} {tab tab' : Tab}
    (h : (tabSection b tab).id = (tabSection b' tab').id) : b.index = b'.index ∧ tab = tab' := by
  rw [id_tabSection, id_tabSection] at h
  obtain ⟨hindex, hname⟩ := controlId_inj tab.digitFree_name tab'.digitFree_name
    (List.append_cancel_left h)
  exact ⟨hindex, Tab.name_injective hname⟩

theorem digitFree_id_tabSection (b : BoundElement) (tab : Tab) :
    digitFree (tabSection b tab).id = false := by
  rw [id_tabSection, digitFree, List.all_append]
  exact Bool.and_eq_false_iff.2 (.inr (digitFree_controlId ..))

theorem digitFree_id_customCodeSection (css js : Text) :
    digitFree (customCodeSection css js).id = true := by
  have hname : digitFree "section_custom_code" = true := by decide
  exact hname

theorem map_id_elementSections (b : BoundElement) :
    (elementSections b).map (·.id)
      = (Tab.all.filter fun tab => !(b.template.fields tab).isEmpty).map
          fun tab => (tabSection b tab).id := by
  rw [elementSections, List.map_map]
  rfl

theorem exists_tab_of_mem {id : Text} (h : id ∈ (elementSections b).map (·.id)) :
    ∃ tab, (tabSection b tab).id = id := by
  rw [map_id_elementSections] at h
  obtain ⟨tab, -, hid⟩ := List.mem_map.1 h
  exact ⟨tab, hid⟩

theorem Tab.nodup_all : Tab.all.Nodup := by decide

/-- No two sections of elements with distinct numbers share an id. -/
theorem nodup_sectionIds (hindex : (bs.map (·.index)).Nodup) :
    ((bs.flatMap elementSections).map (·.id)).Nodup := by
  rw [List.map_flatMap]
  refine List.nodup_flatMap.2 ⟨fun b _ => ?_, ?_⟩
  · rw [map_id_elementSections]
    refine (Tab.nodup_all.filter _).map fun tab tab' h => ?_
    exact (id_tabSection_inj h).2
  · refine (List.Nodup.of_map _ hindex).pairwise_of_forall_ne fun b hb b' hb' hne => ?_
    intro id hid hid'
    obtain ⟨tab, rfl⟩ := exists_tab_of_mem hid
    obtain ⟨tab', h⟩ := exists_tab_of_mem hid'
    exact hne (List.inj_on_of_nodup_map hindex hb hb' (id_tabSection_inj h).1.symm)

/-- The sections of a widget are those of its elements and that of its own code. -/
theorem exists_sections_generate (c : Catalog) (settings : Settings) (m : Identity)
    (forest : List Element) (markup style behavior : Text) : ∃ css js,
    (Widget.generate c settings m forest markup style behavior).sections
      = (bindForest c forest).flatMap elementSections ++ [customCodeSection css js] :=
  ⟨_, _, rfl⟩

/-! ## Controls of different elements -/

theorem controlIdsOf_elementSections (b : BoundElement) :
    controlIdsOf (elementSections b) = b.template.fieldIds.map b.controlId := by
  simpa using controlIdsOf_elements [b]

theorem digitFree_of_mem_controlIds {id : Text} (h : id ∈ controlIdsOf (elementSections b)) :
    digitFree id = false := by
  rw [controlIdsOf_elementSections] at h
  obtain ⟨f, -, rfl⟩ := List.mem_map.1 h
  exact digitFree_controlId ..

/-- The number and the field can be read off the id of a control, if there are no digits in the ids of
fields.  So with such a catalog no two elements of a widget share the id of a control, and none of
them has that of an editor for the widget's own code; and no two sections of a widget share an id. -/
theorem controlId_separates :
    (∀ (tag tag' : Text) (i j : Nat) (id id' : Text), digitFree id = true → digitFree id' = true →
        controlId tag i id = controlId tag' j id' → i = j ∧ id = id')
      ∧ ∀ c : Catalog, (∀ entry ∈ c.templates, ∀ id ∈ entry.2.fieldIds, digitFree id = true) →
        ∀ settings m forest markup style behavior,
          let w := Widget.generate c settings m forest markup style behavior
          (bindForest c forest).Pairwise (fun b b' =>
              List.Disjoint (controlIdsOf (elementSections b)) (controlIdsOf (elementSections b')))
            ∧ (∀ b ∈ bindForest c forest, ∀ id ∈ controlIdsOf (elementSections b),
              id ≠ "custom_css".toList ∧ id ≠ "custom_js".toList)
            ∧ (w.sections.map (·.id)).Nodup := by
  refine ⟨fun _ _ _ _ _ _ hid hid' h => controlId_inj hid hid' h, ?_⟩
  intro c hdigits settings m forest markup style behavior w
  have hfields {b : BoundElement} (hb : b ∈ bindForest c forest) :
      ∀ id ∈ b.template.fieldIds, digitFree id = true := by
    intro id hid
    rw [(of_mem_bindFrom hb).1] at hid
    obtain ⟨entry, hentry, hid⟩ := Catalog.exists_entry_of_mem_fieldIds hid
    exact hdigits entry hentry id hid
  have hindex := nodup_index_bindForest c forest
  refine ⟨?_, fun b _ id hid => ⟨?_, ?_⟩, ?_⟩
  · refine (List.Nodup.of_map _ hindex).pairwise_of_forall_ne fun b hb b' hb' hne => ?_
    rw [controlIdsOf_elementSections, controlIdsOf_elementSections]
    exact disjoint_ids (hfields hb) (hfields hb') fun h =>
      hne (List.inj_on_of_nodup_map hindex hb hb' h)
  · rintro rfl
    exact absurd (digitFree_of_mem_controlIds hid) (by decide)
  · rintro rfl
    exact absurd (digitFree_of_mem_controlIds hid) (by decide)
  · obtain ⟨css, js, hsections⟩ : ∃ css js, w.sections
        = (bindForest c forest).flatMap elementSections ++ [customCodeSection css js] :=
      exists_sections_generate c settings m forest markup style behavior
    rw [hsections, List.map_append]
    refine (nodup_sectionIds hindex).append (List.nodup_singleton _) fun id hid hcustom => ?_
    obtain ⟨section', hsection, rfl⟩ := List.mem_map.1 hid
    obtain ⟨b, -, hsection⟩ := List.mem_flatMap.1 hsection
    obtain ⟨tab, htab⟩ := exists_tab_of_mem (List.mem_map_of_mem hsection)
    have hdigit := digitFree_id_tabSection b tab
    rw [htab, List.mem_singleton.1 hcustom, digitFree_id_customCodeSection] at hdigit
    exact absurd hdigit.symm Bool.false_ne_true

/-- An element that is nothing but its tag. -/
def bare (tag : Text) : Element := Element.make tag [] none none [] []

/-- Two tags that are written alike in an id, and three elements whose tags look like the ids of their
neighbours' controls. -/
theorem controlId_separates_spans :
    (digitFree "text" = true
        ∧ controlId "x-1" 12 "text" = controlId "x.1" 12 "text"
        ∧ 12 = 12 ∧ ("text" : Text) = "text")
      ∧ (∀ entry ∈ Catalog.builtin.templates, ∀ id ∈ entry.2.fieldIds, digitFree id = true)
      ∧ let forest := [bare "span", bare "span-0", bare "span-0-text"]
        (bindForest Catalog.builtin forest).Pairwise (fun b b' =>
            List.Disjoint (controlIdsOf (elementSections b)) (controlIdsOf (elementSections b')))
          ∧ (∀ b ∈ bindForest Catalog.builtin forest, ∀ id ∈ controlIdsOf (elementSections b),
            id ≠ "custom_css".toList ∧ id ≠ "custom_js".toList)
          ∧ ∀ settings m markup style behavior,
            ((Widget.generate Catalog.builtin settings m forest markup style behavior).sections.map
              (·.id)).Nodup := by
  have htext : digitFree "text" = true := by decide
  have hsame : controlId "x-1" 12 "text" = controlId "x.1" 12 "text" := by decide
  have hdigits : ∀ entry ∈ Catalog.builtin.templates, ∀ id ∈ entry.2.fieldIds, digitFree id = true := by
    decide
  have hapart := fun settings m => controlId_separates.2 Catalog.builtin hdigits settings m
    [bare "span", bare "span-0", bare "span-0-text"]
  obtain ⟨hindex, hid⟩ := controlId_separates.1 "x-1" "x.1" 12 12 "text" "text" htext htext hsame
  refine ⟨⟨htext, hsame, hindex, hid⟩, hdigits, ?_, ?_, ?_⟩
  · exact (hapart {} ⟨"span", "Span", "", "general", "eicon-code"⟩ [] [] []).1
  · exact (hapart {} ⟨"span", "Span", "", "general", "eicon-code"⟩ [] [] []).2.1
  · exact fun settings m markup style behavior => (hapart settings m markup style behavior).2.2

/-! ## Controls of one element -/

/-- No id stands in one tab of one of the templates and in another tab of one of them. -/
def KeepTabs (ts : List Template) : Prop :=
  ∀ t ∈ ts, ∀ t' ∈ ts, ∀ tab tab', ∀ id ∈ t.idsIn tab, id ∈ t'.idsIn tab' → tab = tab'

/-- Where no tab repeats an id, an id is repeated by standing in two tabs. -/
theorem Template.nodup_fieldIds_iff {t : Template} (h : t.Distinct) :
    t.fieldIds.Nodup ↔ ∀ tab tab', ∀ id ∈ t.idsIn tab, id ∈ t.idsIn tab' → tab = tab' := by
  rw [fieldIds_eq, List.nodup_flatMap]
  constructor
  · rintro ⟨-, hapart⟩ tab tab' id hid hid'
    have hsymm : Std.Symm (Function.onFun List.Disjoint t.idsIn) := ⟨fun _ _ h => List.disjoint_symm h⟩
    by_contra hne
    exact hapart.forall (Tab.mem_all tab) (Tab.mem_all tab') hne hid hid'
  · intro hkeep
    refine ⟨fun tab _ => h tab, Tab.nodup_all.pairwise_of_forall_ne fun tab _ tab' _ hne => ?_⟩
    exact fun id hid hid' => hne (hkeep tab tab' id hid hid')

namespace Catalog

theorem mem_idsIn_foldLine {tab : Tab} {id : Text} :
    id ∈ (foldLine ts).idsIn tab ↔ ∃ t ∈ ts, id ∈ t.idsIn tab := by
  rw [← mergeLine_reverse, mem_idsIn_mergeLine]
  simp only [List.mem_reverse]

/-- What a line of templates is folded to repeats no id exactly if the line keeps ids in their
tabs. -/
theorem nodup_fieldIds_foldLine_iff (h : (foldLine ts).Distinct) :
    (foldLine ts).fieldIds.Nodup ↔ KeepTabs ts := by
  rw [Template.nodup_fieldIds_iff h]
  constructor
  · intro hkeep t ht t' ht' tab tab' id hid hid'
    exact hkeep tab tab' id (mem_idsIn_foldLine.2 ⟨t, ht, hid⟩) (mem_idsIn_foldLine.2 ⟨t', ht', hid'⟩)
  · intro hkeep tab tab' id hid hid'
    obtain ⟨t, ht, hid⟩ := mem_idsIn_foldLine.1 hid
    obtain ⟨t', ht', hid'⟩ := mem_idsIn_foldLine.1 hid'
    exact hkeep t ht t' ht' tab tab' id hid hid'

end Catalog

/-- An element registers an id twice exactly if its template has the id of a field twice. -/
theorem nodup_controlIds_iff (b : BoundElement) :
    (controlIdsOf (elementSections b)).Nodup ↔ b.template.fieldIds.Nodup := by
  rw [controlIdsOf_elementSections]
  exact List.nodup_map_iff b.controlId_injective

theorem nodup_ids_of_mem_elementSections (h : b.template.Distinct) {s : Section}
    (hs : s ∈ elementSections b) : (s.controls.map (·.id)).Nodup := by
  obtain ⟨tab, -, rfl⟩ := List.mem_map.1 hs
  have hids : (tabSection b tab).controls.map (·.id) = (b.template.idsIn tab).map b.controlId := by
    rw [controls_tabSection, Template.idsIn, List.map_map, List.map_map]
    rfl
  rw [hids]
  exact (h tab).map b.controlId_injective

/-- A control keeps its default if its element registers no id twice and no other element registers
the id of the control. -/
theorem find?_defaultsOf_elementSections (hindex : (bs.map (·.index)).Nodup)
    (hmore : ∀ id ∈ controlIdsOf more, digitFree id = true) (hb : b ∈ bs)
    (honce : (controlIdsOf (elementSections b)).Nodup) {ctrl : Control}
    (hctrl : ctrl ∈ (elementSections b).flatMap (·.controls))
    (halone : ∀ b' ∈ bs, b'.index ≠ b.index → ctrl.id ∉ controlIdsOf (elementSections b')) :
    (defaultsOf (bs.flatMap elementSections ++ more)).find? ctrl.id = ctrl.default := by
  have hid : ctrl.id ∈ controlIdsOf (elementSections b) := List.mem_map_of_mem hctrl
  rw [controlIdsOf] at honce
  refine find?_defaultsOf ?_ fun c' hc' hsame => ?_
  · rw [List.flatMap_append, List.flatMap_assoc]
    exact List.mem_append_left _ (List.mem_flatMap.2 ⟨b, hb, hctrl⟩)
  · rw [List.flatMap_append, List.flatMap_assoc] at hc'
    rcases List.mem_append.1 hc' with hc' | hc'
    · obtain ⟨b', hb', hc'⟩ := List.mem_flatMap.1 hc'
      have hid' : ctrl.id ∈ controlIdsOf (elementSections b') := hsame ▸ List.mem_map_of_mem hc'
      have hnumber : b'.index = b.index := by
        by_contra hne
        exact halone b' hb' hne hid'
      obtain rfl : b' = b := List.inj_on_of_nodup_map hindex hb' hb hnumber
      exact List.inj_on_of_nodup_map honce hc' hctrl hsame
    · have hdigits := hmore c'.id (List.mem_map_of_mem hc')
      rw [hsame, digitFree_of_mem_controlIds hid] at hdigits
      exact absurd hdigits Bool.false_ne_true

/-- With a catalog that was accepted, no tab of a template repeats an id, with all that the template
inherits, and no section of an element registers one twice.  The ids of all tabs together differ
exactly if the templates of the line keep them in their tabs.  Then an element registers each id once,
and each of its controls keeps its default, as long as no other element registers the same id. -/
theorem registers_once {c : Catalog} {yaml : Text} (h : Catalog.ofYaml yaml = .ok c) (tag : Text) :
    ∃ ts, c.Line (c.keyFor tag) ts
      ∧ (c.resolve tag).Distinct
      ∧ ((c.resolve tag).fieldIds.Nodup ↔ KeepTabs ts)
      ∧ ∀ b : BoundElement, b.template = c.resolve tag →
        (∀ s ∈ elementSections b, (s.controls.map (·.id)).Nodup)
          ∧ ((controlIdsOf (elementSections b)).Nodup ↔ KeepTabs ts)
          ∧ (KeepTabs ts → ∀ settings m forest markup style behavior, b ∈ bindForest c forest →
            ∀ ctrl ∈ (elementSections b).flatMap (·.controls),
              (Widget.generate c settings m forest markup style behavior).defaults.find? ctrl.id
                  = ctrl.default
                ∨ ∃ b' ∈ bindForest c forest, b'.index ≠ b.index
                  ∧ ctrl.id ∈ controlIdsOf (elementSections b')) := by
  have hdistinct := Catalog.distinct_of_ofYaml h tag
  obtain ⟨ts, hline, hresolve⟩ := (Catalog.wellFormed_of_ofYaml h).resolve_eq tag
  have hkeep : (c.resolve tag).fieldIds.Nodup ↔ KeepTabs ts := by
    rw [hresolve] at hdistinct ⊢
    exact Catalog.nodup_fieldIds_foldLine_iff hdistinct
  refine ⟨ts, hline, hdistinct, hkeep, fun b hb => ?_⟩
  have honce : (controlIdsOf (elementSections b)).Nodup ↔ KeepTabs ts := by
    rw [nodup_controlIds_iff, hb, hkeep]
  refine ⟨fun s hs => nodup_ids_of_mem_elementSections (hb ▸ hdistinct) hs, honce, ?_⟩
  intro hts settings m forest markup style behavior hmem ctrl hctrl
  obtain ⟨css, js, hsections⟩ := exists_sections_generate c settings m forest markup style behavior
  have hcustom : ∀ id ∈ controlIdsOf [customCodeSection css js], digitFree id = true := by
    have hids : ∀ id ∈ (["custom_css", "custom_js"] : List Text), digitFree id = true := by decide
    exact hids
  refine or_iff_not_imp_right.2 fun halone => ?_
  rw [Widget.defaults, hsections]
  refine find?_defaultsOf_elementSections (nodup_index_bindForest c forest) hcustom hmem
    (honce.2 hts) hctrl fun b' hb' hne hid => ?_
  exact halone ⟨b', hb', hne, hid⟩

/-! ## A catalog of notes -/

/-- A note, with a text that it holds at first. -/
def note (id default : Text) : Field :=
  { id := id, label := "N", kind := .text, default := some default }

/-- The document of a catalog in which quotations have a note among their styles and inherit one under
the same id among their contents.  Another id of a paragraph looks like that of an element behind. -/
def noteYaml : Text :=
  "fallback: p\ntemplates:\n  p: \x7bcontent: [\x7bid: n, label: N, type: TEXT, default: A\x7d, "
    ++ "\x7bid: m_1_n, label: N, type: TEXT, default: B\x7d]\x7d\n"
    ++ "  q: \x7bextends: p, style: [\x7bid: n, label: N, type: TEXT, default: B\x7d]\x7d\n"

/-- The templates in that document. -/
def noteTemplates : Dictionary Template :=
  [("p", { content := [note "n" "A", note "m_1_n" "B"] }),
    ("q", { base := some "p", style := [note "n" "B"] })]

/-- The catalog in that document. -/
def noteCatalog : Catalog := Catalog.assemble "p" noteTemplates

theorem ofYaml_noteYaml : Catalog.ofYaml noteYaml = .ok noteCatalog := by
  have hread : (Yaml.Document.read? noteYaml).bind (Catalog.partsOfValue? ·.value)
      = some (("p" : Text), noteTemplates) := by
    decide +kernel
  have hcheck : noteCatalog.check = .ok () := by decide +kernel
  rw [Catalog.ofYaml, hread]
  simp only [Catalog.make?, ← noteCatalog.eq_1, hcheck]

/-- The second note of a paragraph that stands alone keeps its default, as the first one does. -/
theorem registers_once_paragraph :
    Catalog.ofYaml noteYaml = .ok noteCatalog
      ∧ (noteCatalog.resolve "p").Distinct
      ∧ (noteCatalog.resolve "p").fieldIds.Nodup
      ∧ ∃ b ∈ bindForest noteCatalog [bare "p"], b.template = noteCatalog.resolve "p"
        ∧ (controlIdsOf (elementSections b)).Nodup
        ∧ ∀ settings m markup style behavior, ∀ ctrl ∈ (elementSections b).flatMap (·.controls),
          (Widget.generate noteCatalog settings m [bare "p"] markup style behavior).defaults.find? ctrl.id
            = ctrl.default := by
  obtain ⟨ts, -, hdistinct, hkeep, hcontrols⟩ := registers_once ofYaml_noteYaml "p"
  have hids : (noteCatalog.resolve "p").fieldIds.Nodup := by decide +kernel
  obtain ⟨b, hbound⟩ : ∃ b, bindForest noteCatalog [bare "p"] = [b] := ⟨_, rfl⟩
  have hb : b ∈ bindForest noteCatalog [bare "p"] := hbound ▸ List.mem_singleton_self b
  have htemplate : b.template = noteCatalog.resolve "p" := by
    obtain rfl : _ = b := List.singleton_inj.1 hbound
    rfl
  obtain ⟨-, honce, hdefaults⟩ := hcontrols b htemplate
  refine ⟨ofYaml_noteYaml, hdistinct, hids, b, hb, htemplate, honce.2 (hkeep.1 hids), ?_⟩
  intro settings m markup style behavior ctrl hctrl
  refine (hdefaults (hkeep.1 hids) settings m _ markup style behavior hb ctrl hctrl).resolve_right ?_
  rintro ⟨b', hb', hne, -⟩
  rw [hbound, List.mem_singleton] at hb'
  exact hne (congrArg _ hb')

/-- A widget of elements of the catalog, with no code of its own. -/
def noteWidget (forest : List Element) : Widget :=
  Widget.generate noteCatalog {} ⟨"note", "Note", "", "general", "eicon-code"⟩ forest [] [] []

/-- A quotation registers the note that it has and the one that it inherits under one id, and only the
default of its own is left.  The default of the second note of a paragraph is lost where the element
behind registers a note under the same id. -/
theorem registers_twice :
    Catalog.ofYaml noteYaml = .ok noteCatalog
      ∧ ¬ (noteCatalog.resolve "q").fieldIds.Nodup
      ∧ (∃ b ∈ bindForest noteCatalog [bare "q"], ¬ (controlIdsOf (elementSections b)).Nodup
        ∧ ∃ ctrl ∈ (elementSections b).flatMap (·.controls), ctrl.default = some (.text "A")
          ∧ (noteWidget [bare "q"]).defaults.find? ctrl.id = some (.text "B"))
      ∧ ∃ b ∈ bindForest noteCatalog [bare "p", bare "p-0-m"],
        (controlIdsOf (elementSections b)).Nodup
        ∧ ∃ ctrl ∈ (elementSections b).flatMap (·.controls), ctrl.default = some (.text "B")
          ∧ (noteWidget [bare "p", bare "p-0-m"]).defaults.find? ctrl.id = some (.text "A") :=
  ⟨ofYaml_noteYaml, by decide +kernel, by decide +kernel, by decide +kernel⟩

end WidgetCompiler
