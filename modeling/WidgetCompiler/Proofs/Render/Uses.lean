import Mathlib.Data.List.Nodup
import WidgetCompiler.Proofs.Catalog.Builtin
import WidgetCompiler.Proofs.Render.PlanValues

/-!
# What a plan looks up

The parts of a plan look up values: a text to be printed, the address in a record, whether there is
a record at all (`usesIn`).  What they expect to find is what the bindings give them, text where
text is printed and a record where an address is asked for; each binding is looked up somewhere;
and the controls behind the bindings are of the kind that goes with this (`Coherent`).  The planner
makes no other plans (`coherent_planRender`).
-/

namespace WidgetCompiler.Render

open Text Markup

/-- What a part looks up. -/
inductive Use
  | echo (value : Value)
  | attributes (var : Text)
  | test (var : Text)
deriving DecidableEq, Repr

/-- All that parts look up, in their order. -/
def usesIn : List Part → List Use
  | [] => []
  | .markup _ :: ps => usesIn ps
  | .echo value _ :: ps => .echo value :: usesIn ps
  | .linkAttributes var :: ps => .attributes var :: usesIn ps
  | .ifSet var body :: ps => .test var :: (usesIn body ++ usesIn ps)

theorem usesIn_append (a b : List Part) : usesIn (a ++ b) = usesIn a ++ usesIn b := by
  induction a with
  | nil => simp [usesIn]
  | cons p ps ih => cases p <;> simp [usesIn, ih]

theorem usesIn_flatMap {α : Type} (f : α → List Part) (l : List α) :
    usesIn (l.flatMap f) = l.flatMap fun a => usesIn (f a) := by
  induction l with
  | nil => simp [usesIn]
  | cons a l ih => simp [usesIn_append, ih]

theorem usesIn_mergeMarkup (ps : List Part) : usesIn (mergeMarkup ps) = usesIn ps := by
  fun_induction mergeMarkup ps <;> simp_all [usesIn]

/-! ## Texts and records -/

/-- The source gives a text. -/
def Source.IsText : Source → Prop
  | .setting _ => True
  | .settingOr _ _ => True
  | .linkOrNull _ => False
  | .urlOr _ _ => False

/-- The source gives a record, or one or nothing. -/
def Source.IsLink : Source → Prop
  | .setting _ => False
  | .settingOr _ _ => False
  | .linkOrNull _ => True
  | .urlOr _ _ => True

/-- The source gives a record or nothing. -/
def Source.IsOptional : Source → Prop
  | .linkOrNull _ => True
  | _ => False

/-- Where a binding is looked up at least. -/
def Binding.use (b : Binding) : Use :=
  match b.source with
  | .setting _ => .echo (.var b.var)
  | .settingOr _ _ => .echo (.var b.var)
  | .linkOrNull _ => .test b.var
  | .urlOr _ _ => .echo (.url b.var)

section

variable (text link : Text → Prop)

/-- The control behind a source holds what the source gives. -/
def Source.Sorted : Source → Prop
  | .setting id => text id
  | .settingOr id _ => text id
  | .linkOrNull id => link id
  | .urlOr id _ => link id

/-- What is looked up is there, and it is what it is taken for. -/
def Use.Grounded (bindings : List Binding) : Use → Prop
  | .echo (.setting id) => text id
  | .echo (.var name) => ∃ b ∈ bindings, b.var = name ∧ b.source.IsText
  | .echo (.url name) => ∃ b ∈ bindings, b.var = name ∧ b.source.IsLink
  | .attributes name => ∃ b ∈ bindings, b.var = name ∧ b.source.IsLink
  | .test name => ∃ b ∈ bindings, b.var = name ∧ b.source.IsOptional

/-- Bindings and parts fit together. -/
structure Coherent (bindings : List Binding) (parts : List Part) : Prop where
  sorted : ∀ b ∈ bindings, b.source.Sorted text link
  grounded : ∀ u ∈ usesIn parts, u.Grounded text bindings
  used : ∀ b ∈ bindings, b.use ∈ usesIn parts

/-- The controls of an element hold texts and records as their fields say. -/
structure Sorts (b : BoundElement) : Prop where
  text : ∀ {field id : Text}, field ∈ plainFieldIds → b.control? field = some id → text id
  link : ∀ {field id : Text}, field ∈ urlFieldIds → b.control? field = some id → link id

variable {text link}

theorem Use.Grounded.mono {u : Use} {bs bs' : List Binding} (h : bs ⊆ bs')
    (hu : u.Grounded text bs) : u.Grounded text bs' := by
  cases u with
  | echo v =>
    cases v with
    | setting id => exact hu
    | var name => exact hu.imp fun b hb => ⟨h hb.1, hb.2⟩
    | url name => exact hu.imp fun b hb => ⟨h hb.1, hb.2⟩
  | attributes name => exact hu.imp fun b hb => ⟨h hb.1, hb.2⟩
  | test name => exact hu.imp fun b hb => ⟨h hb.1, hb.2⟩

/-! ## Pieces of plans -/

theorem usesIn_textReplaced (markup : Text) (tag : StartTag) (innerStop stop : Nat)
    (textId : Text) : usesIn (textReplaced markup tag innerStop stop textId)
      = [.echo (.setting textId)] := by
  simp [textReplaced, usesIn]

/-- A start tag looks up the values of its replacements, of which no two have one name. -/
theorem mem_usesIn_startTagWith {tag : StartTag} {rs : List Replacement}
    (hrs : (rs.map (·.name)).Nodup) {u : Use} :
    u ∈ usesIn (startTagWith tag rs) ↔ ∃ r ∈ rs, u = .echo r.value := by
  have hparts (r : Replacement) : usesIn r.parts = [.echo r.value] := by
    simp [Replacement.parts, usesIn]
  rw [startTagWith, List.cons_append, usesIn, usesIn_append, usesIn_flatMap, usesIn_flatMap,
    List.mem_append, List.mem_flatMap, List.mem_flatMap]
  constructor
  · rintro (⟨a, -, ha⟩ | ⟨r, hr, hu⟩)
    · split at ha
      · next r hr => exact ⟨r, List.mem_of_find?_eq_some hr, by simpa [hparts] using ha⟩
      · simp [usesIn] at ha
    · exact ⟨r, List.mem_of_mem_filter hr, by simpa [hparts] using hu⟩
  · rintro ⟨r, hr, rfl⟩
    cases hhas : tag.hasAttribute r.name with
    | false => exact .inr ⟨r, List.mem_filter.2 ⟨hr, by simp [hhas]⟩, by simp [hparts]⟩
    | true =>
      obtain ⟨a, ha, hname⟩ : ∃ a ∈ tag.attributes, a.name = r.name := by
        simpa [StartTag.hasAttribute] using hhas
      have hfind : rs.find? (·.name == a.name) = some r := by
        obtain ⟨r', hr'⟩ : ∃ r', rs.find? (·.name == a.name) = some r' :=
          Option.isSome_iff_exists.1 (List.find?_isSome.2 ⟨r, hr, by simp [hname]⟩)
        have hsame : r'.name = r.name := by
          have : r'.name = a.name := by simpa using List.find?_some hr'
          rw [this, hname]
        rw [hr', List.inj_on_of_nodup_map hrs (List.mem_of_find?_eq_some hr') hr hsame]
      refine .inl ⟨a, ha, ?_⟩
      rw [hfind]
      simp [hparts]

/-- A link looks up whether it is there, its address and its attributes. -/
theorem usesIn_wrapInLink (name : Text) (inner : List Part) :
    usesIn (wrapInLink (some name) inner)
      = [.test name, .echo (.url name), .attributes name] ++ usesIn inner ++ [.test name] := by
  simp [wrapInLink, linkOpen, usesIn, usesIn_append]

theorem usesIn_wrapInLink_none (inner : List Part) :
    usesIn (wrapInLink none inner) = usesIn inner := rfl

/-! ## The kinds of elements -/

section Kinds

variable {markup : Text} {tag : StartTag} {b : BoundElement} {sub : Substitution}

theorem coherent_textContainer (hb : Sorts text link b)
    (h : textContainerSubstitution? markup tag b = some sub) :
    Coherent text link sub.bindings sub.parts := by
  unfold textContainerSubstitution? at h
  split at h
  · next textId _ _ htext _ =>
    obtain rfl := Option.some.inj h
    refine ⟨by simp, ?_, by simp⟩
    rw [usesIn_textReplaced]
    simpa [Use.Grounded] using hb.text (by decide) htext
  · simp at h

theorem coherent_button (hb : Sorts text link b)
    (h : buttonSubstitution? markup tag b = some sub) :
    Coherent text link sub.bindings sub.parts := by
  unfold buttonSubstitution? at h
  split at h
  · next textId _ _ htext _ =>
    obtain rfl := Option.some.inj h
    have htext : text textId := hb.text (by decide) htext
    cases hlink : b.control? "button_link" with
    | none =>
      refine ⟨by simp, ?_, by simp⟩
      simpa [wrapInLink, usesIn_textReplaced, Use.Grounded] using htext
    | some id =>
      have hid : link id := hb.link (by decide) hlink
      refine ⟨by simpa [Source.Sorted] using hid, ?_, ?_⟩
      · simp only [Option.map_some, usesIn_wrapInLink, usesIn_textReplaced]
        simp [Use.Grounded, Source.IsLink, Source.IsOptional, htext]
      · simp only [Option.map_some, usesIn_wrapInLink]
        simp [Binding.use]
  · simp at h

theorem coherent_input (hb : Sorts text link b) (h : inputSubstitution? tag b = some sub) :
    Coherent text link sub.bindings sub.parts := by
  unfold inputSubstitution? at h
  split at h
  · next id hid =>
    split at h
    · obtain rfl := Option.some.inj h
      refine ⟨by simp, fun u hu => ?_, by simp⟩
      simp only [usesIn_append, usesIn, List.append_nil] at hu
      obtain ⟨r, hr, rfl⟩ := (mem_usesIn_startTagWith (by simp)).1 hu
      obtain rfl := List.mem_singleton.1 hr
      exact hb.text (by decide) hid
    · simp at h
  · simp at h

theorem coherent_anchor (hb : Sorts text link b)
    (h : anchorSubstitution? markup tag b = some sub) :
    Coherent text link sub.bindings sub.parts := by
  unfold anchorSubstitution? at h
  split at h
  · next textId _ _ htext _ =>
    have htext : text textId := hb.text (by decide) htext
    split at h
    · next id hid =>
      obtain rfl := Option.some.inj h
      refine ⟨by simpa [Source.Sorted] using hb.link (by decide) hid, fun u hu => ?_, fun bd hbd => ?_⟩
      · simp only [usesIn_append, List.mem_append] at hu
        rcases hu with (hu | hu) | hu
        · obtain ⟨r, hr, rfl⟩ := (mem_usesIn_startTagWith (by simp)).1 hu
          obtain rfl := List.mem_singleton.1 hr
          simp [Use.Grounded, Source.IsLink]
        · split at hu
          · simp [usesIn] at hu
          · obtain rfl : u = .attributes (localName "link_url" b.index) := by simpa [usesIn] using hu
            simp [Use.Grounded, Source.IsLink]
        · obtain rfl : u = .echo (.setting textId) := by simpa [usesIn] using hu
          exact htext
      · obtain rfl := List.mem_singleton.1 hbd
        simp only [usesIn_append, List.mem_append]
        exact .inl (.inl ((mem_usesIn_startTagWith (by simp)).2 ⟨_, List.mem_singleton_self _, rfl⟩))
    · obtain rfl := Option.some.inj h
      refine ⟨by simp, fun u hu => ?_, by simp⟩
      simp only [usesIn_append, List.mem_append] at hu
      rcases hu with hu | hu
      · obtain ⟨r, hr, -⟩ := (mem_usesIn_startTagWith (by simp)).1 hu
        simp at hr
      · obtain rfl : u = .echo (.setting textId) := by simpa [usesIn] using hu
        exact htext
  · simp at h

theorem coherent_image (hb : Sorts text link b) (h : imageSubstitution? tag b = some sub) :
    Coherent text link sub.bindings sub.parts := by
  unfold imageSubstitution? at h
  split at h
  · next id hid =>
    obtain rfl := Option.some.inj h
    have hid : link id := hb.link (by decide) hid
    have huses {alt? : Option Replacement} (halt : ∀ r ∈ alt?, r.name = "alt") {u : Use}
        {r : Replacement} (hr : r.name = "src") :
        u ∈ usesIn (startTagWith tag (r :: alt?.toList) ++ [.markup tag.tail])
          ↔ u = .echo r.value ∨ ∃ r' ∈ alt?, u = .echo r'.value := by
      have hnodup : ((r :: alt?.toList).map (·.name)).Nodup := by
        cases alt? with
        | none => simp
        | some r' =>
          have : r'.name = "alt" := halt r' rfl
          simp [hr, this]
      rw [usesIn_append, show usesIn [.markup tag.tail] = [] by simp [usesIn], List.append_nil,
        mem_usesIn_startTagWith hnodup]
      simp
    cases halt : b.control? "alt_text" with
    | none =>
      simp only [Option.map_none]
      refine ⟨by simpa [Source.Sorted] using hid, fun u hu => ?_, fun bd hbd => ?_⟩
      · rw [huses (by simp) rfl] at hu
        obtain rfl : u = _ := by simpa using hu
        simp [Use.Grounded, Source.IsLink]
      · rw [huses (by simp) rfl]
        obtain rfl : bd = _ := by simpa using hbd
        exact .inl rfl
    | some altId =>
      have haltId : text altId := hb.text (by decide) halt
      simp only [Option.map_some]
      refine ⟨by simpa [Source.Sorted] using ⟨hid, haltId⟩, fun u hu => ?_, fun bd hbd => ?_⟩
      · rw [huses (by simp) rfl] at hu
        rcases hu with rfl | ⟨r, hr, rfl⟩
        · simp [Use.Grounded, Source.IsLink]
        · obtain rfl : _ = r := by simpa using hr
          simp [Use.Grounded, Source.IsText]
      · rw [huses (by simp) rfl]
        rcases List.mem_cons.1 hbd with rfl | hbd
        · exact .inl rfl
        · obtain rfl : bd = _ := by simpa using hbd
          exact .inr ⟨_, rfl, rfl⟩
  · simp at h

theorem coherent_heading (hb : Sorts text link b)
    (h : headingSubstitution? markup tag b = some sub) :
    Coherent text link sub.bindings sub.parts := by
  unfold headingSubstitution? at h
  split at h
  · next textId _ _ htext _ =>
    obtain rfl := Option.some.inj h
    have htext : text textId := hb.text (by decide) htext
    have htag : ∀ id ∈ b.control? "html_tag", text id := fun _ h => hb.text (by decide) h
    have hlink : ∀ id ∈ b.control? "link", link id := fun _ h => hb.link (by decide) h
    clear h
    generalize b.control? "html_tag" = tag? at htag ⊢
    generalize b.control? "link" = link? at hlink ⊢
    cases tag? <;> cases link?
    all_goals
      simp only [Option.map_some, Option.map_none]
      refine ⟨?_, ?_, ?_⟩
      · simp_all [Source.Sorted]
      · simp [usesIn_wrapInLink, usesIn_wrapInLink_none, usesIn, Use.Grounded, Source.IsText,
          Source.IsLink, Source.IsOptional]
      · simp [usesIn_wrapInLink, usesIn_wrapInLink_none, usesIn, Binding.use]
  · simp at h

theorem coherent_of_substitution? (hb : Sorts text link b)
    (h : substitution? markup tag b = some sub) : Coherent text link sub.bindings sub.parts := by
  unfold substitution? at h
  split at h
  · simp at h
  · exact coherent_textContainer hb h
  · exact coherent_heading hb h
  · exact coherent_anchor hb h
  · exact coherent_button hb h
  · exact coherent_image hb h
  · exact coherent_input hb h

end Kinds

/-! ## Plans -/

theorem usesIn_woven {markup : Text} (written : Nat) (xs : List (Exchange markup)) :
    usesIn (woven written xs) = xs.flatMap fun x => usesIn x.result.parts := by
  induction xs generalizing written with
  | nil => simp [woven, usesIn]
  | cons x xs ih => simp [woven, usesIn, usesIn_append, ih]

/-- What a plan looks up is what its bindings give. -/
theorem coherent_planRender {markup : Text} {bs : List BoundElement}
    (hbs : ∀ b ∈ bs, Sorts text link b) :
    Coherent text link (planRender markup bs).bindings (planRender markup bs).parts := by
  obtain ⟨xs, hxs⟩ := exists_accounts_planRender markup bs
  have hown (x : Exchange markup) (hx : x ∈ xs) :
      Coherent text link x.result.bindings x.result.parts :=
    coherent_of_substitution? (hbs x.element (hxs.elements.subset (List.mem_map_of_mem hx))) x.made
  have hbindings : (planRender markup bs).bindings = xs.flatMap (·.result.bindings) := hxs.bindings
  have huses : usesIn (planRender markup bs).parts
      = xs.flatMap fun x => usesIn x.result.parts := by
    rw [planRender, usesIn_mergeMarkup, hxs.parts, usesIn_woven]
  refine ⟨?_, ?_, ?_⟩ <;> rw [hbindings]
  · intro bd hbd
    obtain ⟨x, hx, hbd⟩ := List.mem_flatMap.1 hbd
    exact (hown x hx).sorted bd hbd
  · intro u hu
    rw [huses] at hu
    obtain ⟨x, hx, hu⟩ := List.mem_flatMap.1 hu
    exact ((hown x hx).grounded u hu).mono fun bd hbd => List.mem_flatMap.2 ⟨x, hx, hbd⟩
  · intro bd hbd
    rw [huses]
    obtain ⟨x, hx, hbd⟩ := List.mem_flatMap.1 hbd
    exact List.mem_flatMap.2 ⟨x, hx, (hown x hx).used bd hbd⟩

end

end WidgetCompiler.Render
