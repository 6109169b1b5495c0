import WidgetCompiler.Proofs.Text.MadeOf
import WidgetCompiler.Proofs.Text.Pieces
import WidgetCompiler.Style.Prepare

/-!
# What a prepared sheet is made of

A sheet that is read, cut down, put below a wrapper and written again is made of nothing but the
characters of the text it was read from, of those of the wrapper, and of a few that writing brings
along (`sheetMarks`).  So if all of these are of a kind, the text of the sheet is (`madeOf_prepare`).
-/

namespace WidgetCompiler.Style

open Text

/-- The characters that a sheet is written with. -/
def sheetMarks : Text := " ,\n\x7b\x7d"

section

variable {p : Char → Bool} {s t wrapper indent : Text} {r : Rule} {ns : List Node}

/-- All texts of a rule are made of a kind of characters. -/
structure Rule.MadeOf (p : Char → Bool) (r : Rule) : Prop where
  selectors : ∀ s ∈ r.selectors, Text.MadeOf p s
  declarations : Text.MadeOf p r.declarations

/-- All texts of a sheet are made of a kind of characters. -/
inductive Sheet.MadeOf (p : Char → Bool) : List Node → Prop
  | nil : MadeOf p []
  | rule {r : Rule} {ns : List Node} : r.MadeOf p → MadeOf p ns → MadeOf p (.rule r :: ns)
  | group {condition : Text} {children ns : List Node} : Text.MadeOf p condition →
    MadeOf p children → MadeOf p ns → MadeOf p (.group condition children :: ns)
  | raw {t : Text} {ns : List Node} : Text.MadeOf p t → MadeOf p ns → MadeOf p (.raw t :: ns)

/-! ## Reading -/

theorem madeOf_splitCommas {quote : Option Char} {depth : Nat} (ht : Text.MadeOf p t) :
    ∀ s ∈ splitCommas quote depth t, Text.MadeOf p s := by
  have hkeep {c : Char} {pieces : List Text} (hc : p c = true)
      (hpieces : ∀ s ∈ pieces, Text.MadeOf p s) :
      ∀ s ∈ extendFirst c pieces, Text.MadeOf p s := by
    cases pieces with
    | nil => simpa using MadeOf.cons hc MadeOf.nil
    | cons piece pieces =>
      obtain ⟨hpiece, hpieces⟩ := List.forall_mem_cons.1 hpieces
      exact List.forall_mem_cons.2 ⟨hpiece.cons hc, hpieces⟩
  fun_induction splitCommas quote depth t with
  | case1 => simpa using MadeOf.nil
  | case6 _ _ _ _ _ _ _ ih =>
    exact List.forall_mem_cons.2 ⟨MadeOf.nil, ih (List.forall_mem_cons.1 ht).2⟩
  | _ =>
    rename_i ih
    obtain ⟨hc, hrest⟩ := List.forall_mem_cons.1 ht
    exact hkeep hc (ih hrest)

theorem madeOf_splitSelectors (ht : Text.MadeOf p t) : ∀ s ∈ splitSelectors t, Text.MadeOf p s := by
  intro s hs
  obtain ⟨piece, hpiece, rfl⟩ := List.mem_map.1 (List.mem_filter.1 hs).1
  exact (madeOf_splitCommas ht piece hpiece).trim

theorem madeOf_oneLine (hspace : p ' ' = true) (ht : Text.MadeOf p t) :
    Text.MadeOf p (oneLine t) := by
  refine MadeOf.join (MadeOf.cons hspace MadeOf.nil) fun s hs => ?_
  obtain ⟨line, hline, rfl⟩ := List.mem_map.1 (List.mem_filter.1 hs).1
  exact (ht.lines hline).trim

/-- What is read from a text is made of its characters and of spaces. -/
theorem madeOf_parse (hspace : p ' ' = true) (ht : Text.MadeOf p t) :
    Sheet.MadeOf p (Sheet.parse t) := by
  have hprelude {s prelude rest : Text} {stop : PreludeEnd} (hs : Text.MadeOf p s)
      (h : preludeEnd? none 0 s = some (prelude, stop, rest)) :
      Text.MadeOf p prelude ∧ p stop.char = true ∧ Text.MadeOf p rest := by
    rw [preludeEnd?_eq_some h] at hs
    exact ⟨hs.left, List.forall_mem_cons.1 hs.right⟩
  have hblock {s inner rest : Text} (hs : Text.MadeOf p s)
      (h : blockEnd? .plain 0 s = some (inner, rest)) :
      Text.MadeOf p inner ∧ p '\x7d' = true ∧ Text.MadeOf p rest := by
    rw [blockEnd?_eq_some h] at hs
    exact ⟨hs.left, List.forall_mem_cons.1 hs.right⟩
  fun_induction Sheet.parse t with
  | case1 => exact .nil
  | case2 c s _ ih => exact ih (List.forall_mem_cons.1 ht).2
  | case3 c s _ body ha comment rest h _ ih =>
    refine .raw (ht.of_subset (List.take_subset _ _)) (ih ?_)
    rw [after?_eq_some.1 ha, cut?_eq_some h] at ht
    exact ht.right.right
  | case4 => exact .raw ht .nil
  | case5 => exact .nil
  | case6 => exact .raw ht.trim .nil
  | case7 c s _ _ prelude rest h _ ih =>
    obtain ⟨hprelude, hstop, hrest⟩ := hprelude ht h
    exact .raw (hprelude.trim.append (MadeOf.cons hstop MadeOf.nil)) (ih hrest)
  | case8 => exact .raw ht.trim .nil
  | case9 c s _ _ prelude body h inner rest hb _ name _ _ ihinner ih =>
    obtain ⟨hprelude, -, hbody⟩ := hprelude ht h
    obtain ⟨hinner, -, hrest⟩ := hblock hbody hb
    exact .group hprelude.trim (ihinner hinner) (ih hrest)
  | case10 c s _ _ prelude body h inner rest hb _ name _ _ ih =>
    obtain ⟨hprelude, hopen, hbody⟩ := hprelude ht h
    obtain ⟨hinner, hclose, hrest⟩ := hblock hbody hb
    refine .raw (MadeOf.trim ?_) (ih hrest)
    exact (hprelude.append (hinner.cons hopen)).append (MadeOf.cons hclose MadeOf.nil)
  | case11 c s _ _ prelude body h inner rest hb _ _ ih =>
    obtain ⟨hprelude, -, hbody⟩ := hprelude ht h
    obtain ⟨hinner, -, hrest⟩ := hblock hbody hb
    exact .rule ⟨madeOf_splitSelectors hprelude.trim, madeOf_oneLine hspace hinner⟩ (ih hrest)

/-! ## Preparing -/

theorem madeOf_filterMapRules {f : Rule → Option Rule}
    (hf : ∀ {r r'}, f r = some r' → r.MadeOf p → r'.MadeOf p) (h : Sheet.MadeOf p ns) :
    Sheet.MadeOf p (Sheet.filterMapRules f ns) := by
  induction h with
  | nil => rw [Sheet.filterMapRules]; exact .nil
  | @rule r ns hr _ ih =>
    rw [Sheet.filterMapRules]
    split
    · next hsome => exact .rule (hf hsome hr) ih
    · exact ih
  | group hcondition _ _ ihchildren ih =>
    rw [Sheet.filterMapRules]
    split
    · exact ih
    · exact .group hcondition ihchildren ih
  | raw ht _ ih => rw [Sheet.filterMapRules]; exact .raw ht ih

theorem madeOf_withoutGlobal (h : Sheet.MadeOf p ns) : Sheet.MadeOf p (Sheet.withoutGlobal ns) := by
  refine madeOf_filterMapRules (fun {r r'} hr hrule => ?_) h
  unfold Rule.withoutGlobal? at hr
  split at hr
  · simp at hr
  · obtain rfl := Option.some.inj hr
    exact ⟨fun s hs => hrule.selectors s (List.mem_of_mem_filter hs), hrule.declarations⟩

theorem madeOf_relevantTo {used : Markup.SelectorSet} (h : Sheet.MadeOf p ns) :
    Sheet.MadeOf p (Sheet.relevantTo used ns) := by
  refine madeOf_filterMapRules (fun {r r'} hr hrule => ?_) h
  unfold Rule.relevant? at hr
  split at hr
  · obtain rfl := Option.some.inj hr
    exact hrule
  · simp at hr

theorem madeOf_scopeTo (hspace : p ' ' = true) (hwrapper : Text.MadeOf p wrapper)
    (h : Sheet.MadeOf p ns) : Sheet.MadeOf p (Sheet.scopeTo wrapper ns) := by
  rw [Sheet.scopeTo]
  induction h with
  | nil => rw [Sheet.mapRules]; exact .nil
  | rule hr _ ih =>
    rw [Sheet.mapRules]
    refine .rule ⟨fun s hs => ?_, hr.declarations⟩ ih
    obtain ⟨selector, hselector, rfl⟩ := List.mem_map.1 hs
    rw [scope]
    split
    · exact hr.selectors selector hselector
    · exact hwrapper.append (MadeOf.cons hspace (hr.selectors selector hselector))
  | group hcondition _ _ ihchildren ih =>
    rw [Sheet.mapRules]
    exact .group hcondition ihchildren ih
  | raw ht _ ih => rw [Sheet.mapRules]; exact .raw ht ih

theorem madeOf_preparedSheet {used : Option Markup.SelectorSet} {scope : Option Text}
    (hspace : p ' ' = true) (hscope : ∀ wrapper ∈ scope, Text.MadeOf p wrapper)
    (h : Sheet.MadeOf p ns) : Sheet.MadeOf p (Sheet.prepare used scope ns) := by
  have hall {ns : Sheet} (h : Sheet.MadeOf p ns) : Sheet.MadeOf p (Sheet.prepare none scope ns) := by
    cases scope with
    | none => exact madeOf_withoutGlobal h
    | some wrapper => exact madeOf_scopeTo hspace (hscope wrapper rfl) (madeOf_withoutGlobal h)
  cases used with
  | none => exact hall h
  | some used =>
    have hused : Sheet.MadeOf p (if used.isEmpty then ns else Sheet.relevantTo used ns) := by
      split
      · exact h
      · exact madeOf_relevantTo h
    exact hall hused

/-! ## Writing -/

section

variable (hmarks : Text.MadeOf p sheetMarks)

include hmarks

theorem Rule.MadeOf.render (h : r.MadeOf p) : Text.MadeOf p r.render := by
  have hfixed {t : Text} (ht : t ⊆ sheetMarks) : Text.MadeOf p t := hmarks.of_subset ht
  refine (MadeOf.join (hfixed (by decide)) h.selectors).append ?_
  split
  · exact hfixed (by decide)
  · exact ((hfixed (by decide)).append h.declarations).append (hfixed (by decide))

theorem madeOf_renderLines (hindent : Text.MadeOf p indent) (h : Sheet.MadeOf p ns) :
    ∀ l ∈ Sheet.renderLines indent ns, Text.MadeOf p l := by
  have hfixed {t : Text} (ht : t ⊆ sheetMarks) : Text.MadeOf p t := hmarks.of_subset ht
  induction h generalizing indent with
  | nil => simp [Sheet.renderLines]
  | rule hr _ ih =>
    rw [Sheet.renderLines]
    exact List.forall_mem_cons.2 ⟨hindent.append (hr.render hmarks), ih hindent⟩
  | group hcondition _ _ ihchildren ih =>
    rw [Sheet.renderLines]
    refine List.forall_mem_append.2 ⟨List.forall_mem_cons.2 ⟨?_, ?_⟩,
      List.forall_mem_cons.2 ⟨?_, ih hindent⟩⟩
    · exact (hindent.append hcondition).append (hfixed (by decide))
    · exact ihchildren (hindent.append (hfixed (by decide)))
    · exact hindent.append (hfixed (by decide))
  | raw ht _ ih =>
    rw [Sheet.renderLines]
    exact List.forall_mem_cons.2 ⟨hindent.append ht, ih hindent⟩

/-- The text of a prepared sheet is made of what the given text and the wrapper are made of. -/
theorem madeOf_prepare {used : Option Markup.SelectorSet} {scope : Option Text}
    (hscope : ∀ wrapper ∈ scope, Text.MadeOf p wrapper) (ht : Text.MadeOf p t) :
    Text.MadeOf p (prepare used scope t) := by
  have hspace : p ' ' = true := hmarks ' ' (by decide)
  have hline : p '\n' = true := hmarks '\n' (by decide)
  rw [prepare]
  split
  · exact MadeOf.nil
  · have hsheet : Sheet.MadeOf p ((Sheet.parse t).prepare used scope) :=
      madeOf_preparedSheet hspace hscope (madeOf_parse hspace ht)
    exact (MadeOf.joinLines hline (madeOf_renderLines hmarks MadeOf.nil hsheet)).trimEnd

end

end

end WidgetCompiler.Style
