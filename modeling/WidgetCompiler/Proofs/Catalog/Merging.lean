import WidgetCompiler.Catalog.Template
import Mathlib.Data.List.Nodup
import Mathlib.Tactic.Tauto

/-!
# Laying templates over each other

In each tab a merge keeps the fields of the template below in their places, with those that the
template above has under the same ids in their stead, and puts the other fields of the template above
behind them.  So the ids of a merge can be told from the ids of the two templates
(`map_id_mergeFields`), and its fields as well (`mem_mergeFields_iff`).

What lies on top of a field does not depend on how three templates are put together
(`onTop_mergeFields`), nor do the fields that come behind, and so merging is associative whatever the
templates are.  That no two fields of a tab share an id (`Template.Distinct`) is what idempotence
needs, and it is kept.  `merge_laws` says all this of templates.
-/

namespace WidgetCompiler

open Text

variable {base mid overlay top fs : List Field} {f : Field} {id : Text}

/-! ## The field on top -/

/-- The field that an overlay has under the id of a field, or else the field itself. -/
def onTop (overlay : List Field) (f : Field) : Field := (overlay.find? (·.id == f.id)).getD f

theorem mergeFields_eq (base overlay : List Field) :
    mergeFields base overlay = base.map (onTop overlay) ++ overlay.filter (!hasId base ·.id) := rfl

@[simp] theorem id_onTop (overlay : List Field) (f : Field) : (onTop overlay f).id = f.id := by
  unfold onTop
  cases h : overlay.find? (·.id == f.id) with
  | none => rfl
  | some o => simpa using List.find?_some h

theorem map_id_onTop (base overlay : List Field) :
    (base.map (onTop overlay)).map (·.id) = base.map (·.id) := by
  simp [List.map_map, Function.comp_def]

theorem onTop_mergeFields (mid top : List Field) (f : Field) :
    onTop (mergeFields mid top) f = onTop top (onTop mid f) := by
  calc onTop (mergeFields mid top) f
      = (top.find? (·.id == f.id) <|> mid.find? (·.id == f.id)).getD f := by
        rw [onTop, find?_mergeFields]
    _ = (top.find? (·.id == f.id)).getD (onTop mid f) := by
        cases top.find? (·.id == f.id) <;> rfl
    _ = onTop top (onTop mid f) := by
        rw [onTop.eq_1 top, id_onTop]

theorem hasId_iff : hasId fs id = true ↔ id ∈ fs.map (·.id) := by
  simp [hasId]

/-- Where no id is repeated, the field on top is the one of the overlay that has the id. -/
theorem onTop_of_mem (h : (overlay.map (·.id)).Nodup) {o : Field} (ho : o ∈ overlay)
    (hid : o.id = f.id) : onTop overlay f = o := by
  have hsome : (overlay.find? (·.id == f.id)).isSome := by
    rw [List.find?_isSome]
    exact ⟨o, ho, by simpa using hid⟩
  obtain ⟨p, hp⟩ := Option.isSome_iff_exists.1 hsome
  have hpid : p.id = f.id := by simpa using List.find?_some hp
  rw [onTop, hp, Option.getD_some]
  exact List.inj_on_of_nodup_map h (List.mem_of_find?_eq_some hp) ho (hpid.trans hid.symm)

theorem onTop_of_not_mem (h : f.id ∉ overlay.map (·.id)) : onTop overlay f = f := by
  have hnone : overlay.find? (·.id == f.id) = none := by
    rw [List.find?_eq_none]
    intro o ho hid
    exact h (List.mem_map.2 ⟨o, ho, by simpa using hid⟩)
  rw [onTop, hnone, Option.getD_none]

/-! ## Merged fields -/

/-- The ids of merged fields are those below in their order, and then the others. -/
theorem map_id_mergeFields (base overlay : List Field) :
    (mergeFields base overlay).map (·.id)
      = base.map (·.id) ++ (overlay.map (·.id)).filter (· ∉ base.map (·.id)) := by
  rw [mergeFields_eq, List.map_append, map_id_onTop, List.filter_map]
  congr 2
  refine List.filter_congr fun o _ => ?_
  rw [Function.comp_apply, decide_not, ← Bool.decide_coe (hasId base o.id)]
  simp only [hasId_iff]

theorem hasId_mergeFields (base overlay : List Field) (id : Text) :
    hasId (mergeFields base overlay) id = (hasId base id || hasId overlay id) := by
  rw [Bool.eq_iff_iff, Bool.or_eq_true, hasId_iff, hasId_iff, hasId_iff, map_id_mergeFields,
    List.mem_append, List.mem_filter, decide_eq_true_eq]
  tauto

/-- Where the overlay repeats no id, merged fields are its own and those below under other ids. -/
theorem mem_mergeFields_iff (h : (overlay.map (·.id)).Nodup) :
    f ∈ mergeFields base overlay ↔ f ∈ overlay ∨ f ∈ base ∧ f.id ∉ overlay.map (·.id) := by
  constructor
  · intro hf
    rcases List.mem_append.1 hf with hf | hf
    · obtain ⟨b, hb, rfl⟩ : ∃ b ∈ base, onTop overlay b = f := List.mem_map.1 hf
      by_cases hid : b.id ∈ overlay.map (·.id)
      · obtain ⟨o, ho, hoid⟩ := List.mem_map.1 hid
        rw [onTop_of_mem h ho hoid]
        exact .inl ho
      · rw [onTop_of_not_mem hid]
        exact .inr ⟨hb, hid⟩
    · exact .inl (List.mem_filter.1 hf).1
  · rw [mergeFields_eq, List.mem_append, List.mem_filter]
    rintro (ho | ⟨hb, hid⟩)
    · cases hbase : hasId base f.id with
      | true =>
        obtain ⟨b, hb, hbid⟩ := List.mem_map.1 (hasId_iff.1 hbase)
        exact .inl (List.mem_map.2 ⟨b, hb, onTop_of_mem h ho hbid.symm⟩)
      | false => exact .inr ⟨ho, rfl⟩
    · exact .inl (List.mem_map.2 ⟨f, hb, onTop_of_not_mem hid⟩)

theorem nodup_mergeFields (hbase : (base.map (·.id)).Nodup) (hoverlay : (overlay.map (·.id)).Nodup) :
    ((mergeFields base overlay).map (·.id)).Nodup := by
  rw [map_id_mergeFields]
  refine hbase.append (hoverlay.filter _) fun id hid hnew => ?_
  exact of_decide_eq_true (List.mem_filter.1 hnew).2 hid

theorem mergeFields_self (h : (fs.map (·.id)).Nodup) : mergeFields fs fs = fs := by
  have hkept : fs.map (onTop fs) = fs :=
    (List.map_congr_left fun f hf => onTop_of_mem h hf rfl).trans (List.map_id fs)
  have hadded : fs.filter (!hasId fs ·.id) = [] := by
    rw [List.filter_eq_nil_iff]
    intro f hf
    simp [hasId_iff.2 (List.mem_map_of_mem hf)]
  rw [mergeFields_eq, hkept, hadded, List.append_nil]

/-- Three lists of fields can be put together from either side. -/
theorem mergeFields_assoc (base mid top : List Field) :
    mergeFields (mergeFields base mid) top = mergeFields base (mergeFields mid top) := by
  have hkept : (base.map (onTop mid)).map (onTop top) = base.map (onTop (mergeFields mid top)) := by
    rw [List.map_map]
    exact List.map_congr_left fun f _ => (onTop_mergeFields mid top f).symm
  have hadded : (mid.filter (!hasId base ·.id)).map (onTop top)
      = (mid.map (onTop top)).filter (!hasId base ·.id) := by
    simp only [List.filter_map, Function.comp_def, id_onTop]
  have hlast : top.filter (!hasId (mergeFields base mid) ·.id)
      = (top.filter (!hasId mid ·.id)).filter (!hasId base ·.id) := by
    simp only [List.filter_filter, hasId_mergeFields, Bool.not_or]
  calc mergeFields (mergeFields base mid) top
      = (base.map (onTop mid)).map (onTop top) ++ (mid.filter (!hasId base ·.id)).map (onTop top)
          ++ top.filter (!hasId (mergeFields base mid) ·.id) := by
        rw [mergeFields_eq (mergeFields base mid), mergeFields_eq base mid, List.map_append]
    _ = base.map (onTop (mergeFields mid top))
          ++ (mid.map (onTop top) ++ top.filter (!hasId mid ·.id)).filter (!hasId base ·.id) := by
        rw [hkept, hadded, hlast, List.filter_append, List.append_assoc]
    _ = mergeFields base (mergeFields mid top) := by rw [← mergeFields_eq mid, ← mergeFields_eq]

/-! ## Ids in the tabs of a template -/

theorem Tab.mem_all (tab : Tab) : tab ∈ Tab.all := by
  cases tab <;> decide

namespace Template

/-- The ids of the fields in a tab. -/
def idsIn (t : Template) (tab : Tab) : List Text := (t.fields tab).map (·.id)

theorem fieldIds_eq (t : Template) : t.fieldIds = Tab.all.flatMap t.idsIn := by
  rw [fieldIds, allFields, List.map_flatMap]
  rfl

theorem mem_fieldIds {t : Template} {id : Text} : id ∈ t.fieldIds ↔ ∃ tab, id ∈ t.idsIn tab := by
  rw [fieldIds_eq, List.mem_flatMap]
  exact ⟨fun ⟨tab, _, hid⟩ => ⟨tab, hid⟩, fun ⟨tab, hid⟩ => ⟨tab, Tab.mem_all tab, hid⟩⟩

/-- In each tab, no two fields share an id. -/
def Distinct (t : Template) : Prop := ∀ tab, (t.idsIn tab).Nodup

instance (t : Template) : Decidable t.Distinct :=
  decidable_of_iff (∀ tab ∈ Tab.all, (t.idsIn tab).Nodup)
    ⟨fun h tab => h tab (Tab.mem_all tab), fun h tab _ => h tab⟩

/-! ## Merged templates -/

theorem idsIn_merge (base child : Template) (tab : Tab) :
    (merge base child).idsIn tab
      = base.idsIn tab ++ (child.idsIn tab).filter (· ∉ base.idsIn tab) := by
  rw [idsIn, fields_merge, map_id_mergeFields]
  rfl

theorem mem_idsIn_merge {base child : Template} {tab : Tab} {id : Text} :
    id ∈ (merge base child).idsIn tab ↔ id ∈ base.idsIn tab ∨ id ∈ child.idsIn tab := by
  rw [idsIn_merge, List.mem_append, List.mem_filter, decide_eq_true_eq]
  tauto

theorem Distinct.merge {base child : Template} (hbase : base.Distinct) (hchild : child.Distinct) :
    (Template.merge base child).Distinct := by
  intro tab
  rw [idsIn, fields_merge]
  exact nodup_mergeFields (hbase tab) (hchild tab)

theorem merge_assoc (base mid top : Template) :
    merge (merge base mid) top = merge base (merge mid top) := by
  simp only [merge, mergeFields_assoc]
  cases top.label <;> rfl

theorem merge_self {t : Template} (h : t.Distinct) : merge t t = t := by
  have hfields (tab : Tab) : mergeFields (t.fields tab) (t.fields tab) = t.fields tab :=
    mergeFields_self (h tab)
  have hlabel : (t.label <|> t.label) = t.label := by cases t.label <;> rfl
  obtain ⟨hcontent, hstyle, hadvanced⟩ := And.intro (hfields .content)
    (And.intro (hfields .style) (hfields .advanced))
  simp only [fields] at hcontent hstyle hadvanced
  rw [merge, hlabel, hcontent, hstyle, hadvanced]

/-- Laying templates over each other is associative, changes nothing where a template is laid over
itself, and keeps ids distinct.  In each tab it keeps the ids below in their order and puts the other
ids behind them in theirs; under each id stands the field from above, if there is one, and no id from
below gets lost. -/
theorem merge_laws {base child : Template} (hbase : base.Distinct) (hchild : child.Distinct)
    (top : Template) :
    merge (merge base child) top = merge base (merge child top)
      ∧ merge base base = base
      ∧ (merge base child).Distinct
      ∧ ∀ tab, (merge base child).idsIn tab
            = base.idsIn tab ++ (child.idsIn tab).filter (· ∉ base.idsIn tab)
          ∧ (∀ f, f ∈ (merge base child).fields tab
            ↔ f ∈ child.fields tab ∨ f ∈ base.fields tab ∧ f.id ∉ child.idsIn tab)
          ∧ base.idsIn tab ⊆ (merge base child).idsIn tab := by
  refine ⟨merge_assoc base child top, merge_self hbase, hbase.merge hchild, fun tab => ?_⟩
  refine ⟨idsIn_merge base child tab, fun f => ?_, fun id hid => mem_idsIn_merge.2 (.inl hid)⟩
  rw [fields_merge]
  exact mem_mergeFields_iff (hchild tab)

/-- A box with a text and an image. -/
def box : Template :=
  { tag := "box", label := some "Box"
    content := [{ id := "text", label := "Text", kind := .textarea },
      { id := "image", label := "Image", kind := .media }] }

/-- A card whose text is shorter, with a link. -/
def card : Template :=
  { tag := "card", base := some "box"
    content := [{ id := "link", label := "Link", kind := .url },
      { id := "text", label := "Title", kind := .text }] }

/-- A card with its own image and with a colour under the id that a box has for its text. -/
def banner : Template :=
  { tag := "banner", base := some "card"
    content := [{ id := "image", label := "Background", kind := .media }]
    style := [{ id := "text", label := "Colour", kind := .color }] }

/-- The text of a card stands where that of a box stood, and its link comes last. -/
theorem merge_laws_card :
    box.Distinct ∧ card.Distinct
      ∧ merge (merge box card) banner = merge box (merge card banner)
      ∧ merge box box = box
      ∧ (merge box card).Distinct
      ∧ (merge box card).idsIn .content = ["text", "image", "link"]
      ∧ (merge box card).field? "text" = some { id := "text", label := "Title", kind := .text }
      ∧ (∀ f, f ∈ (merge box card).fields .content
        ↔ f ∈ card.fields .content ∨ f ∈ box.fields .content ∧ f.id ∉ card.idsIn .content)
      ∧ box.idsIn .content ⊆ (merge box card).idsIn .content := by
  have hbox : box.Distinct := by decide
  have hcard : card.Distinct := by decide
  obtain ⟨hassoc, hself, hdistinct, htabs⟩ := merge_laws hbox hcard banner
  obtain ⟨hids, hfields, hkept⟩ := htabs .content
  exact ⟨hbox, hcard, hassoc, hself, hdistinct, hids.trans (by decide), by decide, hfields, hkept⟩

/-- A template that repeats an id is not the same when it is laid over itself. -/
example :
    let text : Field := { id := "text", label := "Text", kind := .text }
    let again : Field := { id := "text", label := "Again", kind := .text }
    (merge { content := [text, again] } { content := [text, again] }).content = [text, text] := by
  decide

end Template

end WidgetCompiler
