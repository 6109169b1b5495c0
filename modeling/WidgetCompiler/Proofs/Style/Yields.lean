import WidgetCompiler.Proofs.Style.Rereading
import WidgetCompiler.Proofs.Style.RoundTrip

/-!
# Texts that are read as they stand

A text yields nodes if reading finds them in it in front of whatever follows (`Yields`).  Blanks, comments,
statements, rules, groups and blocks that hold no rules each yield what they are, if the scanners come
through them; texts behind each other yield their nodes behind each other (`Yields.append`).

What is left open at the end of a sheet yields nothing, as it would take in what follows.  But blanks
around it change nothing (`parse_trim_of_isOpen`).
-/

namespace WidgetCompiler.Style

open Text Sheet

variable {c : Char} {s t u gap prelude body inner rest name : Text} {r : Rule}
  {ns ms : List Node}

/-- Reading finds the nodes in the text, whatever follows. -/
def Yields (t : Text) (ns : List Node) : Prop := ∀ rest, parse (t ++ rest) = ns ++ parse rest

namespace Yields

theorem nil : Yields [] [] := fun _ => rfl

theorem append (hs : Yields s ns) (ht : Yields t ms) : Yields (s ++ t) (ns ++ ms) := by
  intro rest
  rw [List.append_assoc, hs, ht, List.append_assoc]

theorem blanks (h : ∀ c ∈ gap, isAsciiBlank c = true) : Yields gap [] := fun rest => by
  rw [parse_gap h, List.nil_append]

theorem comment (h : Lacks "*/" t) : Yields ("/*" ++ t ++ "*/") [.raw ("/*" ++ t ++ "*/")] :=
  fun rest => parse_comment h rest

/-- A list of selectors with a block. -/
theorem rule (hrun : preludes.run (.plain 0) prelude = some (.plain 0))
    (hhead : ∀ c ∈ (trimStart prelude).head?, c ∉ ("\x7d/@" : Text)) (hinner : Whole inner) :
    Yields (prelude ++ '\x7b' :: (inner ++ ['\x7d']))
      [.rule ⟨splitSelectors prelude, oneLine inner⟩] := by
  have hgap : allBlank (prelude.takeWhile isBlank) = true := allBlank_takeWhile prelude
  have hstart := trimStart_append prelude
  have hblank : ∀ c ∈ (trimStart prelude).head?, isBlank c = false :=
    fun c => isBlank_of_mem_head?_trimStart
  generalize prelude.takeWhile isBlank = gap at hgap hstart
  generalize trimStart prelude = list at hstart hhead hblank
  subst hstart
  rw [Scanner.run_append_of_run (Scanner.run_gap rfl hgap)] at hrun
  rw [splitSelectors_blanks hgap]
  intro rest
  have hshape : gap ++ list ++ '\x7b' :: (inner ++ ['\x7d']) ++ rest
      = gap ++ (list ++ PreludeEnd.block.char :: (inner ++ '\x7d' :: rest)) := by
    simp [PreludeEnd.char]
  obtain ⟨c, u, hcons, hbegins⟩ : ∃ c u,
      list ++ PreludeEnd.block.char :: (inner ++ '\x7d' :: rest) = c :: u ∧ Begins (c :: u) := by
    cases list with
    | nil =>
      refine ⟨_, _, rfl, fun c hc => ?_⟩
      obtain rfl := Option.some.inj hc
      decide
    | cons c list =>
      refine ⟨_, _, rfl, fun d hd => ?_⟩
      obtain rfl : c = d := Option.some.inj hd
      have hmarks := hhead c rfl
      refine ⟨hblank c rfl, fun hm => hmarks ?_⟩
      have hsubset : ∀ e ∈ ("\x7d/" : Text), e ∈ ("\x7d/@" : Text) := by decide
      exact hsubset c hm
  have hat : (trim list).head? ≠ some '@' := by
    cases list with
    | nil => simp
    | cons c list =>
      rw [head?_trim_cons (hblank c rfl)]
      intro h
      obtain rfl := Option.some.inj h
      exact hhead '@' rfl (by decide)
  have hprelude := preludeEnd?_of_run hrun .block (inner ++ '\x7d' :: rest)
  rw [hcons] at hprelude
  rw [hshape, hcons, parse_blanks hgap hbegins, parse_rule hbegins.start.1 hbegins.start.2 hprelude
    (blockEnd?_whole hinner rest) hat, splitSelectors_trim, List.singleton_append]

/-- A statement that begins nothing else. -/
theorem statement (hrun : preludes.run (.plain 0) prelude = some (.plain 0))
    (htrim : trim prelude = prelude)
    (hhead : ∀ c ∈ (prelude ++ [';']).head?, c ∉ ("\x7d/" : Text)) :
    Yields (prelude ++ [';']) [.raw (prelude ++ [';'])] := by
  intro rest
  have hprelude := preludeEnd?_of_run hrun .statement rest
  have hshape : prelude ++ [';'] ++ rest = prelude ++ PreludeEnd.statement.char :: rest := by
    simp [PreludeEnd.char]
  obtain ⟨c, v, hcons, hbegins⟩ : ∃ c v,
      prelude ++ PreludeEnd.statement.char :: rest = c :: v ∧ Begins (c :: v) := by
    cases prelude with
    | nil =>
      refine ⟨_, _, rfl, fun c hc => ?_⟩
      obtain rfl := Option.some.inj hc
      decide
    | cons c v =>
      refine ⟨_, _, rfl, fun d hd => ?_⟩
      obtain rfl : c = d := Option.some.inj hd
      exact ⟨(trim_eq_self_iff.1 htrim).1 c rfl, hhead c rfl⟩
  rw [hcons] at hprelude
  rw [hshape, hcons, parse_statement hbegins.start.1 hbegins.start.2 hprelude, htrim,
    List.singleton_append]

section

variable (hrun : preludes.run (.plain 0) prelude = some (.plain 0)) (hname : trim prelude = '@' :: name)
  (hhead : prelude.head? = some '@')

include hrun hname hhead

/-- A block that holds no rules. -/
theorem verbatim (hinner : ∀ u, blockEnd? .plain 0 (inner ++ '\x7d' :: u) = some (inner, u))
    (hgroup : groupNames.contains (atRuleName name) = false) :
    Yields (prelude ++ '\x7b' :: inner ++ ['\x7d']) [.raw (prelude ++ '\x7b' :: inner ++ ['\x7d'])] := by
  intro rest
  obtain ⟨u, rfl⟩ := List.head?_eq_some_iff.1 hhead
  have hshape : '@' :: u ++ '\x7b' :: inner ++ ['\x7d'] ++ rest
      = '@' :: u ++ PreludeEnd.block.char :: (inner ++ '\x7d' :: rest) := by
    simp [PreludeEnd.char]
  have htrim : trim ('@' :: u ++ '\x7b' :: inner ++ ['\x7d']) = '@' :: u ++ '\x7b' :: inner ++ ['\x7d'] :=
    trim_cons_concat rfl rfl (u ++ '\x7b' :: inner)
  have hstart := start_of_not_mem (c := '@') (by decide) (by decide)
    (u ++ PreludeEnd.block.char :: (inner ++ '\x7d' :: rest))
  have hread := parse_block hstart.1 hstart.2 (preludeEnd?_of_run hrun .block (inner ++ '\x7d' :: rest))
    (hinner rest) hname hgroup
  rw [hshape]
  refine hread.trans ?_
  rw [htrim, List.singleton_append]

/-- A group, with what its block is read as. -/
theorem group (hinner : Whole inner) (hgroup : groupNames.contains (atRuleName name) = true) :
    Yields (prelude ++ '\x7b' :: (inner ++ ['\x7d'])) [.group ('@' :: name) (parse inner)] := by
  intro rest
  obtain ⟨u, rfl⟩ := List.head?_eq_some_iff.1 hhead
  have hshape : '@' :: u ++ '\x7b' :: (inner ++ ['\x7d']) ++ rest
      = '@' :: u ++ PreludeEnd.block.char :: (inner ++ '\x7d' :: rest) := by
    simp [PreludeEnd.char]
  have hstart := start_of_not_mem (c := '@') (by decide) (by decide)
    (u ++ PreludeEnd.block.char :: (inner ++ '\x7d' :: rest))
  have hread := parse_group hstart.1 hstart.2 (preludeEnd?_of_run hrun .block (inner ++ '\x7d' :: rest))
    (blockEnd?_whole hinner rest) hname hgroup
  rw [hshape]
  refine hread.trans ?_
  rw [hname, List.singleton_append]

end

end Yields

/-! ## Declarations that were read -/

theorem not_mem_oneLine (t : Text) : '\n' ∉ oneLine t := by
  rw [oneLine_eq_join]
  intro hmem
  rcases mem_join hmem with hsep | ⟨u, hu, hmem⟩
  · exact absurd hsep (by decide)
  · obtain ⟨line, hline, rfl⟩ := List.mem_map.1 (List.mem_filter.1 hu).1
    have hinner : '\n' ∈ line := ( trim_infix line).subset hmem
    exact absurd (mem_of_mem_splitOn hline hinner).2 (by decide)

theorem trim_oneLine (t : Text) : trim (oneLine t) = oneLine t := by
  rw [oneLine_eq_join]
  have hlines : ∀ u ∈ ((splitOn (· == '\n') t).map trim).filter (! ·.isEmpty), u ≠ [] ∧ trim u = u := by
    intro u hu
    obtain ⟨hmem, hne⟩ := List.mem_filter.1 hu
    obtain ⟨line, -, rfl⟩ := List.mem_map.1 hmem
    exact ⟨by simpa using hne, trim_trim line⟩
  exact trim_join _ hlines

/-- Declarations that were read are read from what is written of them. -/
theorem Rule.oneLine_inner {block : Text} (h : r.declarations = oneLine block) :
    oneLine r.inner = r.declarations := by
  rw [Rule.inner]
  split
  · next hempty => rw [hempty]; rfl
  · rw [h]
    exact oneLine_padded (not_mem_oneLine block) (trim_oneLine block)

/-! ## What is left open -/

/-- The scanners do not come to the end of the first node of the text. -/
def IsOpen (s : Text) : Prop :=
  match preludeEnd? none 0 s with
  | none => True
  | some (_, .statement, _) => False
  | some (_, .block, body) => blockEnd? .plain 0 body = none

theorem isOpen_append_blanks (hgap : allBlank gap = true) : IsOpen (s ++ gap) ↔ IsOpen s := by
  unfold IsOpen
  cases hprelude : preludeEnd? none 0 s with
  | none => rw [preludeEnd?_append_blanks hprelude hgap]
  | some found =>
    obtain ⟨prelude, stop, body⟩ := found
    have hread : preludeEnd? none 0 (s ++ gap) = some (prelude, stop, body ++ gap) := by
      rw [preludeEnd?_eq_some hprelude, List.append_assoc]
      exact preludeEnd?_of_run (run_of_preludeEnd? hprelude) stop _
    rw [hread]
    cases stop with
    | statement => rfl
    | block =>
      cases hbody : blockEnd? .plain 0 body with
      | none => simp [blockEnd?_append_blanks hbody hgap, hbody]
      | some found =>
        obtain ⟨inner, rest⟩ := found
        have hread : blockEnd? .plain 0 (body ++ gap) = some (inner, rest ++ gap) := by
          rw [blockEnd?_eq_some hbody, List.append_assoc]
          exact blockEnd?_of_blockEnd? hbody _
        simp [hread, hbody]

theorem isOpen_blanks (hgap : allBlank gap = true) : IsOpen (gap ++ s) ↔ IsOpen s := by
  unfold IsOpen
  rw [preludeEnd?_blanks hgap]
  cases preludeEnd? none 0 s with
  | none => rfl
  | some found =>
    obtain ⟨prelude, stop, body⟩ := found
    cases stop <;> rfl

/-- What is left open is one node. -/
theorem parse_of_isOpen (h : IsOpen (c :: s)) (hbegins : Begins (c :: s)) :
    parse (c :: s) = [.raw (trim (c :: s))] := by
  have hne : trim (c :: s) ≠ [] := fun hnil => by
    have hblank := allBlank_of_trim_eq_nil hnil
    rw [allBlank_cons, (hbegins c rfl).1] at hblank
    cases hblank
  unfold IsOpen at h
  cases hprelude : preludeEnd? none 0 (c :: s) with
  | none =>
    rw [parse_of_no_prelude hbegins.start.1 hbegins.start.2 hprelude, if_neg (by simpa using hne)]
  | some found =>
    obtain ⟨prelude, stop, body⟩ := found
    rw [hprelude] at h
    cases stop with
    | statement => exact h.elim
    | block => exact parse_of_open_block hbegins.start.1 hbegins.start.2 hprelude h

/-- Trimmed and with blanks behind it, what is left open is the node that it was. -/
theorem parse_trim_of_isOpen (h : IsOpen s) (hne : trim s ≠ [])
    (hhead : ∀ c ∈ (trim s).head?, c ∉ ("\x7d/" : Text)) (hgap : allBlank gap = true) :
    parse (trim s ++ gap) = [.raw (trim s)] := by
  obtain ⟨behind, hbehind, hstart⟩ := exists_trim_append s
  have hopen : IsOpen (trim s ++ gap) := by
    rwa [isOpen_append_blanks hgap, ← isOpen_append_blanks hbehind, ← hstart,
      ← isOpen_blanks (allBlank_takeWhile s), trimStart_append]
  obtain ⟨c, u, hcons⟩ := List.exists_cons_of_ne_nil hne
  have hbegins : Begins (c :: (u ++ gap)) := by
    intro d hd
    obtain rfl : c = d := Option.some.inj hd
    have hc : c ∈ (trim s).head? := by rw [hcons]; rfl
    exact ⟨isBlank_of_mem_head?_trim hc, hhead c hc⟩
  have hread := parse_of_isOpen (by rwa [hcons] at hopen) hbegins
  rw [← List.cons_append, ← hcons] at hread
  rw [hread, trim_append_right hgap, trim_trim]

end WidgetCompiler.Style
