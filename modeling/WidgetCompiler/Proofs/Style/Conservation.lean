import WidgetCompiler.Proofs.Style.Characters
import WidgetCompiler.Proofs.Style.Scanners

/-!
# What reading a sheet keeps

A sheet that is read and written again is laid out anew: blanks are dropped and put elsewhere, commas
between selectors that are empty are gone, and so are closing braces that close nothing.  All else stays,
in its order (`ink_render_parse`).  This holds of every text, also of one in which a quote, a comment,
parentheses or a block stay open.

`ink` is what of a text is left when blanks, commas and closing braces are taken out.
-/

namespace WidgetCompiler.Style

open Text

variable {s t indent : Text}

/-- What of a text is neither blank nor a comma nor a closing brace. -/
def ink (t : Text) : Text := t.filter fun c => !(isBlank c || c == ',' || c == '\x7d')

@[simp] theorem ink_nil : ink [] = [] := rfl

@[simp] theorem ink_append (s t : Text) : ink (s ++ t) = ink s ++ ink t := List.filter_append ..

theorem ink_cons (c : Char) (t : Text) : ink (c :: t) = ink [c] ++ ink t := ink_append [c] t

/-! ## Pieces of a text -/

theorem ink_of_allBlank (h : allBlank t = true) : ink t = [] :=
  List.filter_eq_nil_iff.2 fun c hc => by simp [isBlank_of_mem h hc]

@[simp] theorem ink_trimStart (t : Text) : ink (trimStart t) = ink t := by
  conv_rhs => rw [← trimStart_append t, ink_append, ink_of_allBlank (allBlank_takeWhile t)]
  rw [List.nil_append]

@[simp] theorem ink_trimEnd (t : Text) : ink (trimEnd t) = ink t := by
  obtain ⟨gap, hgap, ht⟩ := exists_trimEnd t
  conv_rhs => rw [ht, ink_append, ink_of_allBlank hgap, List.append_nil]

@[simp] theorem ink_trim (t : Text) : ink (trim t) = ink t := by
  rw [trim, ink_trimEnd, ink_trimStart]

theorem ink_join {sep : Text} (h : ink sep = []) (ts : List Text) :
    ink (join sep ts) = ts.flatMap ink := by
  fun_induction join sep ts with
  | case1 => rfl
  | case2 t => simp
  | case3 t u ts ih => simp [h, ih]

theorem ink_joinLines (ls : List Text) : ink (joinLines ls) = ls.flatMap ink := by
  have hfeed : ink ['\n'] = [] := rfl
  induction ls with
  | nil => rfl
  | cons l ls ih => rw [joinLines, ink_append, ink_cons, hfeed, ih, List.nil_append, List.flatMap_cons]

/-- Trimming pieces and leaving out the empty ones takes no ink. -/
theorem flatMap_ink_trim (ts : List Text) :
    ((ts.map trim).filter (! ·.isEmpty)).flatMap ink = ts.flatMap ink := by
  induction ts with
  | nil => rfl
  | cons t ts ih =>
    rw [List.map_cons, List.filter_cons, List.flatMap_cons, ← ink_trim t, ← ih]
    cases trim t <;> rfl

/-! ## Lists of selectors -/

/-- The pieces of a list and the commas between them are the list. -/
theorem flatMap_ink_splitCommas (quote : Option Char) (depth : Nat) (s : Text) :
    (splitCommas quote depth s).flatMap ink = ink s := by
  have hkeep (c : Char) {u : Text} {pieces : List Text} (h : pieces.flatMap ink = ink u) :
      (extendFirst c pieces).flatMap ink = ink (c :: u) := by
    rw [ink_cons c u, ← h]
    cases pieces with
    | nil => simp
    | cons piece pieces =>
      rw [extendFirst_cons, List.flatMap_cons, List.flatMap_cons, ink_cons c piece, List.append_assoc]
  fun_induction splitCommas quote depth s with
  | case1 => rfl
  | case6 _ c s _ _ _ hcomma ih =>
    have hc : ink [c] = [] := by rw [hcomma.1]; rfl
    rw [List.flatMap_cons, ink_nil, List.nil_append, ih, ink_cons, hc, List.nil_append]
  | _ =>
    rename_i ih
    exact hkeep _ ih

theorem flatMap_ink_splitSelectors (t : Text) : (splitSelectors t).flatMap ink = ink t := by
  rw [splitSelectors, flatMap_ink_trim, flatMap_ink_splitCommas]

/-! ## Declarations -/

theorem ink_oneLine (t : Text) : ink (oneLine t) = ink t := by
  have hfeed : ink ['\n'] = [] := rfl
  have hspace : ink [' '] = [] := rfl
  rw [oneLine_eq_join, ink_join hspace, flatMap_ink_trim, ← ink_join hfeed, join_splitOn]

/-! ## Sheets -/

namespace Sheet

variable {r : Rule} {ns children : List Node} {condition : Text}

/-- What of a sheet is left when it is written, whatever the indentation. -/
def ink : List Node → Text
  | [] => []
  | .rule r :: ns => r.selectors.flatMap Style.ink ++ '\x7b' :: Style.ink r.declarations ++ ink ns
  | .group condition children :: ns => Style.ink condition ++ '\x7b' :: ink children ++ ink ns
  | .raw t :: ns => Style.ink t ++ ink ns

theorem ink_render_rule (r : Rule) :
    Style.ink r.render = r.selectors.flatMap Style.ink ++ '\x7b' :: Style.ink r.declarations := by
  have hempty : Style.ink " \x7b\x7d" = ['\x7b'] := by decide
  have hopen : Style.ink " \x7b " = ['\x7b'] := by decide
  have hclose : Style.ink " \x7d" = [] := by decide
  have hcomma : Style.ink ", " = [] := by decide
  rw [Rule.render, ink_append, ink_join hcomma]
  split
  · next hnone => rw [List.isEmpty_iff.1 hnone, hempty, ink_nil]
  · rw [ink_append, ink_append, hopen, hclose, List.append_nil, List.singleton_append]

theorem flatMap_ink_renderLines (hindent : allBlank indent = true) (ns : List Node) :
    (renderLines indent ns).flatMap Style.ink = ink ns := by
  fun_induction renderLines indent ns with
  | case1 => rw [ink, List.flatMap_nil]
  | case2 indent r ns ih =>
    rw [List.flatMap_cons, ink_append, ink_of_allBlank hindent, ink_render_rule, ih hindent, ink]
    rfl
  | case3 indent condition children ns ihc ih =>
    have hopen : Style.ink [' ', '\x7b'] = ['\x7b'] := rfl
    have hclose : Style.ink ['\x7d'] = [] := rfl
    have hdeeper : allBlank (indent ++ "  ") = true := by rw [allBlank_append, hindent]; rfl
    rw [List.flatMap_append, List.flatMap_cons, List.flatMap_cons, ihc hdeeper, ih hindent, ink]
    simp [ink_of_allBlank hindent, hopen, hclose]
  | case4 indent t ns ih =>
    rw [List.flatMap_cons, ink_append, ink_of_allBlank hindent, ih hindent, ink]
    rfl

theorem ink_render (sheet : Sheet) : Style.ink sheet.render = ink sheet := by
  rw [render, ink_joinLines, flatMap_ink_renderLines rfl]

/-- A text that was cut in front of its rest. -/
theorem ink_take {rest : Text} (h : rest <:+ s) :
    Style.ink (s.take (s.length - rest.length)) ++ Style.ink rest = Style.ink s := by
  obtain ⟨front, rfl⟩ := h
  rw [List.length_append, Nat.add_sub_cancel_right, List.take_left, ink_append]

/-- Reading drops blanks, commas and closing braces, and nothing else. -/
theorem ink_parse (s : Text) : ink (parse s) = Style.ink s := by
  have hclose : Style.ink ['\x7d'] = [] := rfl
  -- the block behind a prelude: its brace stays, the one that closes it goes
  have hblock (inner rest : Text) : Style.ink (PreludeEnd.block.char :: (inner ++ '\x7d' :: rest))
      = '\x7b' :: Style.ink inner ++ Style.ink rest := by
    have hopen : Style.ink [PreludeEnd.block.char] = ['\x7b'] := rfl
    rw [ink_cons, ink_append, ink_cons _ rest, hopen, hclose, List.nil_append, List.singleton_append,
      List.cons_append]
  fun_induction parse s with
  | case1 => rw [ink, ink_nil]
  | case2 c s hc ih =>
    have hskipped : Style.ink [c] = [] := by
      rcases Bool.or_eq_true_iff.1 hc with hc | hc
      · exact ink_of_allBlank (by simp [isBlank_of_isAsciiBlank hc])
      · rw [beq_iff_eq.1 hc, hclose]
    rw [ink_cons, hskipped, ih, List.nil_append]
  | case3 c s _ body ha comment rest hcut _ ih =>
    have hrest : rest <:+ c :: s := by
      rw [after?_eq_some.1 ha, cut?_eq_some hcut, ← List.append_assoc]
      exact List.suffix_append ..
    rw [ink, ih]
    exact ink_take hrest
  | case4 => simp [ink]
  | case5 c s _ _ _ htrim => rw [← ink_trim, htrim, ink, ink_nil]
  | case6 => simp [ink]
  | case7 c s _ _ prelude rest hprelude _ ih =>
    rw [preludeEnd?_eq_some hprelude, ink, ih, ink_append, ink_trim, ink_append,
      ink_cons PreludeEnd.statement.char rest, List.append_assoc]
    rfl
  | case8 => simp [ink]
  | case9 c s _ _ prelude body hprelude inner rest hbody _ name _ _ ihc ih =>
    rw [preludeEnd?_eq_some hprelude, blockEnd?_eq_some hbody, ink, ihc, ih, ink_trim,
      ink_append, hblock, List.append_assoc]
  | case10 c s _ _ prelude body hprelude inner rest hbody _ name _ _ ih =>
    rw [preludeEnd?_eq_some hprelude, blockEnd?_eq_some hbody, ink, ih, ink_trim,
      ink_append, ink_append, ink_append, hblock, ink_cons _ inner, hclose, List.append_nil,
      List.append_assoc, List.append_assoc]
    rfl
  | case11 c s _ _ prelude body hprelude inner rest hbody _ _ ih =>
    rw [preludeEnd?_eq_some hprelude, blockEnd?_eq_some hbody, ink, ih, flatMap_ink_splitSelectors,
      ink_trim, ink_oneLine, ink_append, hblock, List.append_assoc]

/-- What is read and written again is the text up to blanks, commas and closing braces. -/
theorem ink_render_parse (css : Text) : Style.ink (parse css).render = Style.ink css := by
  rw [ink_render, ink_parse]

end Sheet

end WidgetCompiler.Style
