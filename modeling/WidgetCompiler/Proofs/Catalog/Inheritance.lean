import Mathlib.Logic.Relation
import WidgetCompiler.Proofs.Catalog.Accepted
import WidgetCompiler.Proofs.Control.Defaults

/-!
# Lines of templates

The check follows the line of each template up to its root and stops at a tag that it has seen.  Each
step leaves one more tag seen, so it ends on every catalog (`wellFounded_step`), and it finds nothing
exactly where all lines end (`checkBase_eq_ok_iff`); together with what is asked of fields this makes
up a well-formed catalog (`check_eq_ok_iff_wellFormed`).

In a well-formed catalog a walk up a line meets no tag twice and no tag without a template
(`of_reaches`).  So the template that serves an element is the fold of a line from its root down
(`resolve_assemble`), and it depends on no rule about circles or about tags that are missing.
-/

namespace WidgetCompiler.Catalog

open Text Relation

variable {c : Catalog} {tag base key : Text} {t : Template} {seen : List Text} {ts : List Template}

/-! ## Steps up a line -/

/-- The template under a tag extends the one under another. -/
def Extends (c : Catalog) (tag base : Text) : Prop :=
  ∃ t, c.templates.find? tag = some t ∧ t.base = some base

/-- A step up a line, with the tags that were seen before: from a tag that was not among them to the
one that its template extends. -/
inductive Step (c : Catalog) : List Text × Text → List Text × Text → Prop
  | up {seen : List Text} {tag base : Text} : tag ∉ seen → c.Extends tag base →
      Step c (seen, tag) (tag :: seen, base)

/-- Lines are followed up to an end in every catalog, also in one with circles. -/
theorem wellFounded_step (c : Catalog) : WellFounded fun next place => c.Step place next := by
  refine Subrelation.wf (r := InvImage (· < ·) fun place => c.unseen place.1) ?_
    (InvImage.wf _ Nat.lt_wfRel.wf)
  rintro _ _ ⟨hseen, t, ht, -⟩
  exact unseen_cons_lt ht (by simpa using hseen)

/-- A line that can be followed from a tag ends. -/
abbrev Ends (c : Catalog) (tag : Text) : Prop := Acc (fun base tag => c.Extends tag base) tag

theorem Ends.not_transGen (h : c.Ends tag) : ¬ TransGen c.Extends tag tag := by
  induction h with
  | intro tag _ ih =>
    intro hloop
    -- the loop can be entered one step further up
    obtain ⟨base, hbase, hrest⟩ := TransGen.head'_iff.1 hloop
    exact ih base hbase (TransGen.tail' hrest hbase)

/-! ## What the check follows -/

theorem ends_of_circle? {next : Option Text} (h : c.circle? seen next = none) :
    ∀ tag ∈ next, c.Ends tag := by
  fun_induction c.circle? seen next with
  | case1 => simp
  | case2 => simp at h
  | case3 seen tag hseen hfind =>
    rintro _ ⟨rfl⟩
    refine ⟨_, ?_⟩
    rintro base ⟨t, ht, -⟩
    simp [hfind] at ht
  | case4 seen tag hseen t ht _ ih =>
    rintro _ ⟨rfl⟩
    refine ⟨_, ?_⟩
    rintro base ⟨u, hu, hbase⟩
    obtain rfl : t = u := Option.some.inj (ht.symm.trans hu)
    exact ih h base hbase

/-- No tag comes back on a line that ends, as long as it was reached from all the tags that were
seen. -/
theorem circle?_eq_none {next : Option Text} (hends : ∀ tag ∈ next, c.Ends tag)
    (hseen : ∀ tag ∈ next, ∀ s ∈ seen, TransGen c.Extends s tag) : c.circle? seen next = none := by
  fun_induction c.circle? seen next with
  | case1 => rfl
  | case2 seen tag hmem =>
    have hloop := hseen tag rfl tag (by simpa using hmem)
    exact absurd hloop (hends tag rfl).not_transGen
  | case3 => rfl
  | case4 seen tag hmem t ht _ ih =>
    have hstep {base : Text} (hbase : base ∈ t.base) : c.Extends tag base := ⟨t, ht, hbase⟩
    refine ih (fun base hbase => (hends tag rfl).inv (hstep hbase)) fun base hbase s hs => ?_
    rcases List.mem_cons.1 hs with rfl | hs
    · exact .single (hstep hbase)
    · exact (hseen tag rfl s hs).tail (hstep hbase)

/-- The check of what the template under a tag extends. -/
theorem checkBase_eq_ok_iff (ht : c.templates.find? tag = some t) :
    c.checkBase tag t = .ok () ↔ (∀ base ∈ t.base, base ∈ c.tags) ∧ c.Ends tag := by
  have hinv : c.Ends tag ↔ ∀ base ∈ t.base, c.Ends base := by
    constructor
    · exact fun h base hbase => h.inv ⟨t, ht, hbase⟩
    · refine fun h => ⟨_, ?_⟩
      rintro base ⟨u, hu, hbase⟩
      obtain rfl : t = u := Option.some.inj (ht.symm.trans hu)
      exact h base hbase
  unfold checkBase
  cases hbase : t.base with
  | none => simp [hinv, hbase]
  | some base =>
    have hextends : c.Extends tag base := ⟨t, ht, hbase⟩
    have hends : c.circle? [tag] (some base) = none ↔ c.Ends tag := by
      rw [hinv]
      constructor
      · exact fun h b hb => ends_of_circle? h b (hbase ▸ hb)
      · intro h
        refine circle?_eq_none (fun b hb => h b (hbase ▸ hb)) ?_
        rintro _ ⟨rfl⟩ s hs
        obtain rfl := List.mem_singleton.1 hs
        exact .single hextends
    simp only [Option.mem_some_iff, forall_eq', ← hends, tags, ← Dictionary.has_iff_mem_keys]
    cases c.templates.has base <;> cases c.circle? [tag] (some base) <;> simp

/-! ## Well-formed catalogs -/

/-- What the documents of catalogs are asked for. -/
structure WellFormed (c : Catalog) : Prop where
  fallback : c.fallback ∈ c.tags
  /-- The ids of fields are words, and not empty. -/
  words : ∀ entry ∈ c.templates, ∀ tab, ∀ f ∈ entry.2.fields tab, f.id ≠ [] ∧ IsWord f.id
  /-- In a tab, no two fields share an id. -/
  distinct : ∀ entry ∈ c.templates, ∀ tab, ((entry.2.fields tab).map (·.id)).Nodup
  bases : ∀ entry ∈ c.templates, ∀ base ∈ entry.2.base, base ∈ c.tags
  ends : ∀ entry ∈ c.templates, c.Ends entry.1

/-- The check accepts the well-formed catalogs and no others. -/
theorem check_eq_ok_iff_wellFormed (hkeys : c.templates.keys.Nodup) :
    c.check = .ok () ↔ c.WellFormed := by
  have hbase (entry : Text × Template) (hentry : entry ∈ c.templates) :
      c.checkBase entry.1 entry.2 = .ok ()
        ↔ (∀ base ∈ entry.2.base, base ∈ c.tags) ∧ c.Ends entry.1 :=
    checkBase_eq_ok_iff (Dictionary.lookup_of_mem hkeys hentry)
  have htabs (entry : Text × Template) : checkTabs entry.1 entry.2 Tab.all = .ok ()
      ↔ ∀ tab, (∀ f ∈ entry.2.fields tab, f.id ≠ [] ∧ IsWord f.id)
        ∧ ((entry.2.fields tab).map (·.id)).Nodup := by
    simp only [checkTabs_eq_ok_iff, isIdentifier_iff]
    exact ⟨fun h tab => h tab (Tab.mem_all tab), fun h tab _ => h tab⟩
  rw [check_eq_ok_iff]
  constructor
  · rintro ⟨hfallback, h⟩
    exact {
      fallback := hfallback
      words := fun entry hentry tab => ((htabs entry).1 (h entry hentry).1 tab).1
      distinct := fun entry hentry tab => ((htabs entry).1 (h entry hentry).1 tab).2
      bases := fun entry hentry => ((hbase entry hentry).1 (h entry hentry).2).1
      ends := fun entry hentry => ((hbase entry hentry).1 (h entry hentry).2).2 }
  · intro h
    refine ⟨h.fallback, fun entry hentry => ⟨(htabs entry).2 fun tab => ?_, ?_⟩⟩
    · exact ⟨h.words entry hentry tab, h.distinct entry hentry tab⟩
    · exact (hbase entry hentry).2 ⟨h.bases entry hentry, h.ends entry hentry⟩

/-- A catalog that is read from a document is well-formed. -/
theorem wellFormed_of_ofYaml {yaml : Text} (h : ofYaml yaml = .ok c) : c.WellFormed := by
  obtain ⟨fallback, templates, rfl, hcheck⟩ := exists_assemble_of_ofYaml h
  exact (check_eq_ok_iff_wellFormed (Dictionary.nodup_keys_ofList _)).1 hcheck

theorem exists_template (h : tag ∈ c.tags) : ∃ t, c.templates.find? tag = some t :=
  Option.isSome_iff_exists.1 ((Dictionary.has_iff_mem_keys _ _).2 h)

namespace WellFormed

theorem mem_tags_of_extends (h : c.WellFormed) (hextends : c.Extends tag base) : base ∈ c.tags := by
  obtain ⟨t, ht, hbase⟩ := hextends
  exact h.bases _ (Dictionary.mem_of_find? ht) base hbase

theorem ends_of_mem (h : c.WellFormed) (hmem : tag ∈ c.tags) : c.Ends tag := by
  obtain ⟨t, ht⟩ := exists_template hmem
  exact h.ends _ (Dictionary.mem_of_find? ht)

theorem keyFor_mem (h : c.WellFormed) (tag : Text) : c.keyFor tag ∈ c.tags := by
  unfold keyFor
  split
  · next hhas => exact (Dictionary.has_iff_mem_keys _ _).1 hhas
  · exact h.fallback

/-- Wherever a walk from a template gets, it was not there before, and there is a template. -/
theorem of_reaches (h : c.WellFormed) {start : Text} (hstart : start ∈ c.tags)
    (hreach : ReflTransGen c.Step ([], start) (seen, key)) : key ∉ seen ∧ key ∈ c.tags := by
  -- all tags that were seen lead to the one that is reached
  have hwalk : key ∈ c.tags ∧ ∀ s ∈ seen, TransGen c.Extends s key := by
    generalize hplace : (seen, key) = place at hreach
    induction hreach generalizing seen key with
    | refl =>
      obtain ⟨rfl, rfl⟩ := Prod.mk.inj hplace
      exact ⟨hstart, by simp⟩
    | tail hreach hstep ih =>
      obtain ⟨hseen, hextends⟩ := hstep
      obtain ⟨rfl, rfl⟩ := Prod.mk.inj hplace
      obtain ⟨hmem, hlead⟩ := ih rfl
      refine ⟨h.mem_tags_of_extends hextends, fun s hs => ?_⟩
      rcases List.mem_cons.1 hs with rfl | hs
      · exact .single hextends
      · exact (hlead s hs).tail hextends
  exact ⟨fun hmem => (h.ends_of_mem hwalk.1).not_transGen (hwalk.2 key hmem), hwalk.1⟩

end WellFormed

/-! ## Folding a line -/

/-- The templates of a line from its root down to the one under a tag. -/
inductive Line (c : Catalog) : Text → List Template → Prop
  | root {tag : Text} {t : Template} : c.templates.find? tag = some t → t.base = none →
      Line c tag [t]
  | child {tag base : Text} {t : Template} {ts : List Template} : c.templates.find? tag = some t →
      t.base = some base → Line c base ts → Line c tag (ts ++ [t])

theorem Line.ne_nil (h : c.Line tag ts) : ts ≠ [] := by
  cases h <;> simp

/-- The first of some templates with the others laid over it, one after the other. -/
def foldLine : List Template → Template
  | [] => {}
  | t :: ts => ts.foldl Template.merge t

theorem foldLine_concat (hts : ts ≠ []) (t : Template) :
    foldLine (ts ++ [t]) = Template.merge (foldLine ts) t := by
  obtain ⟨u, us, rfl⟩ := List.exists_cons_of_ne_nil hts
  simp [foldLine]

/-- Laying templates over each other from below is the fold from above. -/
theorem mergeLine_reverse (ts : List Template) : mergeLine ts.reverse = foldLine ts := by
  induction ts using List.reverseRecOn with
  | nil => rfl
  | append_singleton ts t ih =>
    rw [List.reverse_concat]
    rcases ts.eq_nil_or_concat' with rfl | ⟨us, u, rfl⟩
    · rfl
    · rw [foldLine_concat (by simp), ← ih, List.reverse_concat, mergeLine]

/-- In a well-formed catalog a walk gives the whole line. -/
theorem WellFormed.exists_line (h : c.WellFormed) (hmem : tag ∈ c.tags)
    (hseen : ∀ s ∈ seen, TransGen c.Extends s tag) :
    ∃ ts, c.Line tag ts ∧ c.lineFrom seen tag = ts.reverse := by
  have hends := h.ends_of_mem hmem
  induction hends generalizing seen with
  | intro tag hacc ih =>
    have hends : c.Ends tag := ⟨_, hacc⟩
    have hnew : ¬ seen.contains tag = true := fun hs =>
      hends.not_transGen (hseen tag (by simpa using hs))
    obtain ⟨t, ht⟩ := exists_template hmem
    rw [lineFrom, dif_neg hnew]
    split
    · next hnone => simp [hnone] at ht
    · next u hu =>
      obtain rfl : t = u := Option.some.inj (ht.symm.trans hu)
      cases hbase : t.base with
      | none => exact ⟨[t], .root ht hbase, by simp⟩
      | some base =>
        have hextends : c.Extends tag base := ⟨t, ht, hbase⟩
        have hseen' : ∀ s ∈ tag :: seen, TransGen c.Extends s base := by
          intro s hs
          rcases List.mem_cons.1 hs with rfl | hs
          · exact .single hextends
          · exact (hseen s hs).tail hextends
        obtain ⟨ts, hline, hwalk⟩ := ih base hextends (h.mem_tags_of_extends hextends) hseen'
        exact ⟨ts ++ [t], .child ht hbase hline, by simp [hwalk]⟩

/-- The template that serves an element is the fold of a line. -/
theorem WellFormed.resolve_eq (h : c.WellFormed) (tag : Text) :
    ∃ ts, c.Line (c.keyFor tag) ts ∧ c.resolve tag = foldLine ts := by
  obtain ⟨ts, hline, hwalk⟩ := h.exists_line (h.keyFor_mem tag) (List.forall_mem_nil _)
  refine ⟨ts, hline, ?_⟩
  unfold resolve
  split
  · next hnil => exact absurd (List.reverse_eq_nil_iff.1 (hwalk ▸ hnil)) hline.ne_nil
  · rw [hwalk, mergeLine_reverse]

/-! ## Catalogs that are put together from templates -/

theorem keyFor_eq (c : Catalog) (tag : Text) :
    c.keyFor tag = if lowerAscii tag ∈ c.tags then lowerAscii tag else c.fallback := by
  by_cases h : lowerAscii tag ∈ c.tags
  · rw [keyFor, if_pos h, if_pos ((Dictionary.has_iff_mem_keys _ _).2 h)]
  · rw [keyFor, if_neg h, if_neg fun hhas => h ((Dictionary.has_iff_mem_keys _ _).1 hhas)]

/-- A catalog is accepted exactly if it is well-formed, and the walks that this takes end in any
case.  In an accepted catalog every tag is served by the fold of the line of its own template, or
else of the fallback's, and on the way up no tag is met twice and no template is missing. -/
theorem resolve_assemble (fallback : Text) (templates : Dictionary Template) :
    let c := assemble fallback templates
    (c.check = .ok () ↔ c.WellFormed)
      ∧ (WellFounded fun next place => c.Step place next)
      ∧ (c.check = .ok () → ∀ tag : Text,
        let key := if lowerAscii tag ∈ c.tags then lowerAscii tag else c.fallback
        (∃ ts, c.Line key ts ∧ c.resolve tag = foldLine ts)
          ∧ ∀ seen next, ReflTransGen c.Step ([], key) (seen, next) →
            next ∉ seen ∧ next ∈ c.tags) := by
  intro c
  have hcheck : c.check = .ok () ↔ c.WellFormed :=
    check_eq_ok_iff_wellFormed (Dictionary.nodup_keys_ofList _)
  refine ⟨hcheck, wellFounded_step c, fun haccepted tag => ?_⟩
  have h : c.WellFormed := hcheck.1 haccepted
  rw [← keyFor_eq]
  exact ⟨h.resolve_eq tag, fun seen next hreach => h.of_reaches (h.keyFor_mem tag) hreach⟩

/-- Templates of which the lowest extends another that extends the fallback's, written in capital
letters here and there. -/
def headingTemplates : Dictionary Template :=
  [("DIV", { label := some "Box", style := [{ id := "margin", label := "Margin", kind := .dimensions }] }),
    ("h1", { base := some "Div", content := [{ id := "heading_text", label := "Text", kind := .text }] }),
    ("h2", { base := some "H1", style := [{ id := "margin", label := "Gap", kind := .slider }] })]

/-- A heading of the second rank has the fields of the whole line, and those of the fallback serve a
tag without a template. -/
theorem resolve_assemble_headings :
    let c := assemble "div" headingTemplates
    c.check = .ok ()
      ∧ (∃ ts, c.Line "h2" ts ∧ c.resolve "H2" = foldLine ts)
      ∧ (∃ ts, c.Line "div" ts ∧ c.resolve "nav" = foldLine ts)
      ∧ (c.resolve "H2").fieldIds = ["heading_text", "margin"]
      ∧ (c.resolve "H2").field? "margin" = some { id := "margin", label := "Gap", kind := .slider } := by
  intro c
  have haccepted : c.check = .ok () := by decide +kernel
  have hlines := (resolve_assemble "div" headingTemplates).2.2 haccepted
  exact ⟨haccepted, (hlines "H2").1, (hlines "nav").1, by decide +kernel, by decide +kernel⟩

/-- Templates that extend each other are refused, whatever template comes upon them. -/
example : (assemble "a" [("a", { base := some "b" }), ("b", { base := some "c" }),
    ("c", { base := some "B" })]).check = .error (.circle ["a", "b", "c", "b"]) := by
  decide +kernel

end WidgetCompiler.Catalog
