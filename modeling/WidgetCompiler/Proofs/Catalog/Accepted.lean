import WidgetCompiler.Catalog.Document
import WidgetCompiler.Proofs.Catalog.Merging
import WidgetCompiler.Proofs.Text.Dictionary

/-!
# What an accepted catalog has

A catalog that passes the check has a template for all elements without one of their own, the ids of
its fields can be parts of names, and no tab of a template repeats one.  Templates that inherit fields
have no other ids than the templates that they inherit them from, and in no other tabs, so all this
goes over to every template that is resolved to (`named_of_ofYaml`, `distinct_of_ofYaml`).
-/

namespace WidgetCompiler

open Text

/-- All fields of a template have ids that can be parts of names. -/
def Template.Named (t : Template) : Prop := ∀ id ∈ t.fieldIds, isIdentifier id = true

/-! ## Templates that inherit -/

namespace Catalog

theorem mem_idsIn_mergeLine {ts : List Template} {tab : Tab} {id : Text} :
    id ∈ (mergeLine ts).idsIn tab ↔ ∃ t ∈ ts, id ∈ t.idsIn tab := by
  induction ts with
  | nil => cases tab <;> simp [mergeLine, Template.idsIn, Template.fields]
  | cons t ts ih =>
    cases ts with
    | nil => simp [mergeLine]
    | cons u ts =>
      rw [mergeLine, Template.mem_idsIn_merge, ih, or_comm]
      exact (List.exists_mem_cons_iff (id ∈ Template.idsIn · tab) t (u :: ts)).symm

theorem distinct_mergeLine {ts : List Template} (h : ∀ t ∈ ts, t.Distinct) :
    (mergeLine ts).Distinct := by
  induction ts with
  | nil => decide
  | cons t ts ih =>
    obtain ⟨ht, hts⟩ := List.forall_mem_cons.1 h
    cases ts with
    | nil => exact ht
    | cons u ts => exact (ih hts).merge ht

/-- A line has no other templates than the catalog. -/
theorem mem_of_mem_lineFrom {c : Catalog} {seen : List Text} {tag : Text} {t : Template}
    (ht : t ∈ c.lineFrom seen tag) : ∃ key, (key, t) ∈ c.templates := by
  fun_induction c.lineFrom seen tag with
  | case1 => simp at ht
  | case2 => simp at ht
  | case3 seen tag hs u hu ih =>
    rcases List.mem_cons.1 ht with rfl | ht
    · exact ⟨tag, Dictionary.mem_of_find? hu⟩
    · split at ht
      · next base _ => exact ih base ht
      · simp at ht

/-- What is resolved to has no other ids than the templates of the catalog. -/
theorem exists_entry_of_mem_fieldIds {c : Catalog} {tag id : Text}
    (hid : id ∈ (c.resolve tag).fieldIds) : ∃ entry ∈ c.templates, id ∈ entry.2.fieldIds := by
  unfold resolve at hid
  split at hid
  · simp [Template.fieldIds, Template.allFields, Tab.all, Template.fields] at hid
  · obtain ⟨tab, hid⟩ := Template.mem_fieldIds.1 hid
    obtain ⟨t, ht, hid⟩ := mem_idsIn_mergeLine.1 hid
    obtain ⟨key, hmem⟩ := mem_of_mem_lineFrom ht
    exact ⟨(key, t), hmem, Template.mem_fieldIds.2 ⟨tab, hid⟩⟩

theorem distinct_resolve {c : Catalog} (h : ∀ entry ∈ c.templates, entry.2.Distinct) (tag : Text) :
    (c.resolve tag).Distinct := by
  unfold resolve
  split
  · intro tab
    cases tab <;> exact List.nodup_nil
  · refine distinct_mergeLine fun t ht => ?_
    obtain ⟨key, hmem⟩ := mem_of_mem_lineFrom ht
    exact h _ hmem

theorem named_resolve {c : Catalog} (h : ∀ entry ∈ c.templates, entry.2.Named) (tag : Text) :
    (c.resolve tag).Named := by
  intro id hid
  obtain ⟨entry, hentry, hid⟩ := exists_entry_of_mem_fieldIds hid
  exact h entry hentry id hid

/-! ## The check -/

/-- The fields of a tab pass if their ids are identifiers, no two of them are the same, and none was
seen before. -/
theorem checkFields_eq_ok_iff {tag : Text} {tab : Tab} {seen : List Text} {fs : List Field} :
    checkFields tag tab seen fs = .ok () ↔ (∀ f ∈ fs, isIdentifier f.id = true)
      ∧ (fs.map (·.id)).Nodup ∧ ∀ f ∈ fs, f.id ∉ seen := by
  fun_induction checkFields tag tab seen fs with
  | case1 => simp
  | case2 seen f fs hid =>
    have hid : isIdentifier f.id = false := by simpa using hid
    simp [hid]
  | case3 seen f fs hid hseen =>
    have hseen : f.id ∈ seen := by simpa using hseen
    simp [hseen]
  | case4 seen f fs hid hseen ih =>
    have hid : isIdentifier f.id = true := by simpa using hid
    have hseen : f.id ∉ seen := by simpa using hseen
    rw [ih, List.map_cons, List.nodup_cons, List.forall_mem_cons, List.forall_mem_cons]
    simp only [List.mem_cons, not_or, List.mem_map, not_exists, not_and]
    constructor
    · rintro ⟨hids, hdistinct, hapart⟩
      exact ⟨⟨hid, hids⟩, ⟨fun g hg => (hapart g hg).1, hdistinct⟩, hseen,
        fun g hg => (hapart g hg).2⟩
    · rintro ⟨⟨-, hids⟩, ⟨hfirst, hdistinct⟩, -, hapart⟩
      exact ⟨hids, hdistinct, fun g hg => ⟨hfirst g hg, hapart g hg⟩⟩

theorem checkTabs_eq_ok_iff {tag : Text} {t : Template} {tabs : List Tab} :
    checkTabs tag t tabs = .ok () ↔ ∀ tab ∈ tabs, (∀ f ∈ t.fields tab, isIdentifier f.id = true)
      ∧ ((t.fields tab).map (·.id)).Nodup := by
  have hfields (tab : Tab) : checkFields tag tab [] (t.fields tab) = .ok ()
      ↔ (∀ f ∈ t.fields tab, isIdentifier f.id = true) ∧ ((t.fields tab).map (·.id)).Nodup := by
    simp [checkFields_eq_ok_iff]
  fun_induction checkTabs tag t tabs with
  | case1 => simp
  | case2 tab tabs h ih =>
    rw [List.forall_mem_cons, ← hfields, h]
    simpa using ih
  | case3 tab tabs e h =>
    rw [List.forall_mem_cons, ← hfields, h]
    simp

/-- The templates pass if each of them does. -/
theorem checkTemplates_eq_ok_iff {c : Catalog} {entries : List (Text × Template)} :
    c.checkTemplates entries = .ok () ↔ ∀ entry ∈ entries,
      checkTabs entry.1 entry.2 Tab.all = .ok () ∧ c.checkBase entry.1 entry.2 = .ok () := by
  fun_induction c.checkTemplates entries with
  | case1 => simp
  | case2 tag t ts e h => simp [h]
  | case3 tag t ts htabs e h => simp [h]
  | case4 tag t ts htabs hbase ih => rw [ih, List.forall_mem_cons, htabs, hbase]; simp

theorem check_eq_ok_iff {c : Catalog} :
    c.check = .ok () ↔ c.fallback ∈ c.tags ∧ ∀ entry ∈ c.templates,
      checkTabs entry.1 entry.2 Tab.all = .ok () ∧ c.checkBase entry.1 entry.2 = .ok () := by
  rw [check, ← checkTemplates_eq_ok_iff, tags, ← Dictionary.has_iff_mem_keys]
  split
  · next h => simp [h]
  · next h => simp [h]

theorem named_of_check {c : Catalog} (h : c.check = .ok ()) :
    ∀ entry ∈ c.templates, entry.2.Named := by
  intro entry hentry id hid
  have htabs := checkTabs_eq_ok_iff.1 ((check_eq_ok_iff.1 h).2 entry hentry).1
  obtain ⟨tab, hid⟩ := Template.mem_fieldIds.1 hid
  obtain ⟨f, hf, rfl⟩ := List.mem_map.1 hid
  exact (htabs tab (Tab.mem_all tab)).1 f hf

theorem distinct_of_check {c : Catalog} (h : c.check = .ok ()) :
    ∀ entry ∈ c.templates, entry.2.Distinct := by
  intro entry hentry tab
  have htabs := checkTabs_eq_ok_iff.1 ((check_eq_ok_iff.1 h).2 entry hentry).1
  exact (htabs tab (Tab.mem_all tab)).2

/-- The catalog of a document is put together out of the entries of the document, and it was checked. -/
theorem exists_assemble_of_ofYaml {c : Catalog} {yaml : Text} (h : ofYaml yaml = .ok c) :
    ∃ fallback templates, c = assemble fallback templates ∧ c.check = .ok () := by
  unfold ofYaml make? at h
  grind

theorem check_of_ofYaml {c : Catalog} {yaml : Text} (h : ofYaml yaml = .ok c) :
    c.check = .ok () := by
  obtain ⟨_, _, -, hcheck⟩ := exists_assemble_of_ofYaml h
  exact hcheck

/-- In the catalog of a document, every template that is resolved to has ids that can be parts of
names. -/
theorem named_of_ofYaml {c : Catalog} {yaml : Text} (h : ofYaml yaml = .ok c) (tag : Text) :
    (c.resolve tag).Named :=
  named_resolve (named_of_check (check_of_ofYaml h)) tag

/-- In the catalog of a document, no tab of a template that is resolved to repeats an id. -/
theorem distinct_of_ofYaml {c : Catalog} {yaml : Text} (h : ofYaml yaml = .ok c) (tag : Text) :
    (c.resolve tag).Distinct :=
  distinct_resolve (distinct_of_check (check_of_ofYaml h)) tag

end Catalog

end WidgetCompiler
