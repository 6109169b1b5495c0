import WidgetCompiler.Php.Literal
import WidgetCompiler.Php.Writer
import WidgetCompiler.Proofs.Php.Execution
import WidgetCompiler.Proofs.Text.Run
import WidgetCompiler.Proofs.Text.Seam

/-!
# Reading a routine

`readProgram?` takes a text for what it tells a machine to do.  It begins in code, where blanks and
comments to the end of a line say nothing, and prints what stands between a `?>` and the next
`<?php`, without a line end directly behind the `?>`.  Code that is not one of the few statements
that it knows gives no program.

A piece of code `Instructs` if a reader who comes to it in code has read just its instructions and
is in code again behind it.  Such pieces can be put one behind the other, so it is enough to know
what a single statement says; each of its parts is read with all that follows it as a parameter.
-/

namespace WidgetCompiler.Php

open Text

/-! ## Expressions -/

/-- Whether a character can stand in a name. -/
def isNameChar (c : Char) : Bool := c.isAlphanum || c == '_'

/-- Whether a name can begin with the character. -/
def isNameHead (c : Char) : Bool := c.isAlpha || c == '_'

/-- A name, and what follows it. -/
def readName? (s : Text) : Option (Text × Text) :=
  if s.head?.any isNameHead then some (s.takeWhile isNameChar, s.dropWhile isNameChar) else none

/-- What a literal in single quotes stands for, and what follows its closing quote, given the text
behind the opening one. -/
def readQuoted? : Text → Option (Text × Text)
  | [] => none
  | '\\' :: c :: s => (readQuoted? s).map (Prod.map (unescapePair '\'' c ++ ·) id)
  | c :: s => if c = '\'' then some ([], s) else (readQuoted? s).map (Prod.map (c :: ·) id)

/-- A key in brackets, and what follows it. -/
def readKey? (s : Text) : Option (Text × Text) := do
  let (key, s) ← readQuoted? (← after? "['" s)
  return (key, ← after? "]" s)

/-- Some keys in brackets, not more than the given number of them. -/
def readKeys : Nat → Text → List Text × Text
  | 0, s => ([], s)
  | n + 1, s => match readKey? s with
    | some (key, s) => (key :: (readKeys n s).1, (readKeys n s).2)
    | none => ([], s)

/-- An operand, and what follows it. -/
def readOperand? : Text → Option (Operand × Text)
  | '$' :: s => do
    let (name, s) ← readName? s
    return (.held name (readKeys 2 s).1, (readKeys 2 s).2)
  | '\'' :: s => (readQuoted? s).map (Prod.map .literal id)
  | '[' :: '\'' :: s => do
    let (key, s) ← readQuoted? s
    let (value, s) ← readQuoted? (← after? " => '" s)
    return (.record key value, ← after? "]" s)
  | s => (after? "null" s).map (Operand.null, ·)

/-- An expression, and what follows it. -/
def readExpression? (s : Text) : Option (Expression × Text) :=
  match after? "!empty(" s with
  | some s => do
    let (tested, s) ← readOperand? s
    let (value, s) ← readOperand? (← after? ") ? " s)
    let (other, s) ← readOperand? (← after? " : " s)
    return (.unlessEmpty tested value other, s)
  | none => (readOperand? s).map (Prod.map .operand id)

/-! ## Statements -/

/-- What is printed: what a function makes of an expression, or the expression itself. -/
def readEcho? (s : Text) : Option (Instruction × Text) :=
  match readName? s with
  | some (function, '(' :: s) => do
    let (e, s) ← readExpression? s
    return (.echo (some function) e, ← after? ");" s)
  | _ => do
    let (e, s) ← readExpression? s
    return (.echo none e, ← after? ";" s)

/-- The value that a name is given. -/
def readAssign? (s : Text) : Option (Instruction × Text) := do
  let (name, s) ← readName? s
  let (e, s) ← readExpression? (← after? " = " s)
  return (.assign name e, ← after? ";" s)

/-- What a condition asks for. -/
def readTest? (s : Text) : Option (Instruction × Text) := do
  let (o, s) ← readOperand? s
  return (.test o, ← after? ") :" s)

/-- A statement, and what follows it. -/
def readStatement? (s : Text) : Option (Instruction × Text) :=
  match s with
  | '$' :: s => readAssign? s
  | 'i' :: s => (after? "f (" s).bind readTest?
  | 'e' :: 'c' :: s => (after? "ho " s).bind readEcho?
  | s => (after? "endif;" s).map (Instruction.endTest, ·)

/-! ## Routines -/

/-- What follows a comment: the end of the line, or the end of code. -/
def afterComment : Text → Text
  | [] => []
  | '?' :: '>' :: s => '?' :: '>' :: s
  | c :: s => if c = '\n' ∨ c = '\r' then s else afterComment s

/-- The text without a line end at its start. -/
def dropLineEnd : Text → Text
  | '\r' :: '\n' :: s => s
  | '\r' :: s => s
  | '\n' :: s => s
  | s => s

/-- Blanks between statements. -/
def isCodeBlank (c : Char) : Bool := c == ' ' || c == '\t' || c == '\n' || c == '\r'

/-- The instructions of what comes next in code, and the code that follows. -/
def readItem? : Text → Option (List Instruction × Text)
  | '/' :: '/' :: s => some ([], afterComment s)
  | '?' :: '>' :: s => match cut? openTag s with
    | some (shown, s) => some ([.print (dropLineEnd shown)], s)
    | none => some ([.print (dropLineEnd s)], [])
  | c :: s =>
    if isCodeBlank c then some ([], s)
    else (readStatement? (c :: s)).map (Prod.map ([·]) id)
  | [] => none

/-- The instructions of a text that begins in code. -/
def readProgram? (s : Text) : Option (List Instruction) :=
  if s = [] then some []
  else match readItem? s with
    | some (is, rest) =>
      if h : rest.length < s.length then (readProgram? rest).map (is ++ ·) else none
    | none => none
termination_by s.length
decreasing_by exact h

/-! ## Pieces of expressions -/

section

variable {name key s : Text}

/-- What ends a name, and the keys behind it. -/
def Stops (s : Text) : Prop := ∀ c ∈ s.head?, c ∈ (") ;" : Text)

/-- A name that can be read. -/
structure IsCodeName (t : Text) : Prop where
  head : t.head?.any isNameHead = true
  chars : ∀ c ∈ t, isNameChar c = true

theorem readName?_append (h : IsCodeName name) (hs : ∀ c ∈ s.head?, isNameChar c = false) :
    readName? (name ++ s) = some (name, s) := by
  have hhead : (name ++ s).head? = name.head? := by
    cases name with
    | nil => exact absurd h.head (by simp)
    | cons c name => rfl
  rw [readName?, hhead, if_pos h.head, takeWhile_run h.chars hs, dropWhile_run h.chars hs]

theorem readQuoted?_append (t s : Text) :
    readQuoted? (escapeSingle t ++ '\'' :: s) = some (t, s) := by
  induction t with
  | nil => rfl
  | cons c t ih =>
    rw [escapeSingle, List.flatMap_cons, List.append_assoc]
    change readQuoted? (escapeSingleChar c ++ (escapeSingle t ++ '\'' :: s)) = _
    unfold escapeSingleChar
    split
    · next h =>
      rw [List.cons_append, List.cons_append, List.nil_append, readQuoted?, ih, h]
      rfl
    · split
      · next h =>
        rw [List.cons_append, List.cons_append, List.nil_append, readQuoted?, ih, h]
        rfl
      · next hslash hquote =>
        rw [List.singleton_append, readQuoted?, if_neg hquote, ih]
        · rfl
        · rintro d r rfl -
          exact hslash rfl

/-- A key as it is written behind a variable. -/
def keyText (key : Text) : Text := "['" ++ (escapeSingle key ++ '\'' :: ("]" : Text))

theorem readKey?_append (key s : Text) : readKey? (keyText key ++ s) = some (key, s) := by
  rw [keyText, List.append_assoc, List.append_assoc, List.cons_append]
  simp [readKey?, after?, readQuoted?_append]

theorem readKey?_of_stops (hs : Stops s) : readKey? s = none := by
  have hnone : after? "['" s = none := by
    cases s with
    | nil => simp [after?]
    | cons c s =>
      have hc : '[' ≠ c := by
        rintro rfl
        exact absurd (hs '[' rfl) (by decide)
      simp [after?, hc]
  rw [readKey?, hnone]
  rfl

theorem readKeys_append {keys : List Text} {n : Nat} (hn : keys.length ≤ n) (hs : Stops s) :
    readKeys n (keys.flatMap keyText ++ s) = (keys, s) := by
  induction keys generalizing n with
  | nil => cases n <;> simp [readKeys, readKey?_of_stops hs]
  | cons key keys ih =>
    obtain ⟨n, rfl⟩ : ∃ m, n = m + 1 := ⟨n - 1, by rw [List.length_cons] at hn; omega⟩
    rw [List.flatMap_cons, List.append_assoc, readKeys, readKey?_append]
    simp [ih (Nat.le_of_succ_le_succ hn)]

theorem not_isNameChar_of_stops (hs : Stops s) : ∀ c ∈ s.head?, isNameChar c = false := by
  have : ∀ c ∈ (") ;" : Text), isNameChar c = false := by decide
  exact fun c hc => this c (hs c hc)

/-- What a variable holds under some keys. -/
theorem readOperand?_held {keys : List Text} (hname : IsCodeName name) (hkeys : keys.length ≤ 2)
    (hs : Stops s) : readOperand? ('$' :: (name ++ (keys.flatMap keyText ++ s)))
      = some (.held name keys, s) := by
  have hend : ∀ c ∈ (keys.flatMap keyText ++ s).head?, isNameChar c = false := by
    cases keys with
    | nil => exact not_isNameChar_of_stops hs
    | cons key keys =>
      intro c hc
      obtain rfl : '[' = c := by simpa [keyText] using hc
      decide
  simp [readOperand?, readName?_append hname hend, readKeys_append hkeys hs]

theorem readOperand?_literal (t s : Text) :
    readOperand? (singleQuoted t ++ s) = some (.literal t, s) := by
  rw [singleQuoted, List.cons_append, List.append_assoc, readOperand?, List.singleton_append,
    readQuoted?_append]
  rfl

/-- An array as it is written. -/
def recordText (key value : Text) : Text :=
  "['" ++ (escapeSingle key ++ '\'' :: (" => " ++ (singleQuoted value ++ "]")))

theorem readOperand?_record (key value s : Text) :
    readOperand? (recordText key value ++ s) = some (.record key value, s) := by
  have hsplit : recordText key value ++ s = '[' :: '\'' :: (escapeSingle key ++ '\''
      :: (" => '" ++ (escapeSingle value ++ '\'' :: ("]" ++ s)))) := by
    simp [recordText, singleQuoted]
  rw [hsplit, readOperand?, readQuoted?_append]
  simp [after?, readQuoted?_append]

theorem readOperand?_null (s : Text) : readOperand? ("null" ++ s) = some (.null, s) := by
  simp [readOperand?, after?]

end

/-! ## Pieces of code -/

/-- A reader who comes to the text in code has read the instructions behind it, and is in code. -/
def Instructs (code : Text) (is : List Instruction) : Prop :=
  ∀ s, readProgram? (code ++ s) = (readProgram? s).map (is ++ ·)

namespace Instructs

variable {s t : Text} {is js : List Instruction}

theorem nil : Instructs [] [] := fun s => by simp

theorem append (hs : Instructs s is) (ht : Instructs t js) : Instructs (s ++ t) (is ++ js) := by
  intro rest
  rw [List.append_assoc, hs, ht, Option.map_map]
  simp [Function.comp_def]

theorem flatMap {α : Type} {f : α → Text} {g : α → List Instruction} {l : List α}
    (h : ∀ a ∈ l, Instructs (f a) (g a)) : Instructs (l.flatMap f) (l.flatMap g) := by
  induction l with
  | nil => exact nil
  | cons a l ih =>
    rw [List.flatMap_cons, List.flatMap_cons]
    exact (h a (by simp)).append (ih fun b hb => h b (by simp [hb]))

/-- What is read as one item. -/
theorem of_item (ht : t ≠ []) (h : ∀ s, readItem? (t ++ s) = some (is, s)) : Instructs t is := by
  intro s
  have hlength : s.length < (t ++ s).length := by
    have := List.length_pos_iff.2 ht
    simp only [List.length_append]
    omega
  rw [readProgram?, if_neg (by simp [ht]), h s]
  exact dif_pos hlength

/-- The program of a text without more. -/
theorem readProgram?_eq (h : Instructs t is) : readProgram? t = some is := by
  have hnil : readProgram? [] = some [] := by rw [readProgram?, if_pos rfl]
  have := h []
  rw [List.append_nil, hnil] at this
  simpa using this

theorem of_blanks (h : ∀ c ∈ t, isCodeBlank c = true) : Instructs t [] := by
  induction t with
  | nil => exact nil
  | cons c t ih =>
    have hc := h c (by simp)
    have hitem (s : Text) : readItem? ([c] ++ s) = some ([], s) := by
      rw [List.singleton_append, readItem?, if_pos hc]
      · rintro r rfl
        exact absurd hc (by decide)
      · rintro r rfl
        exact absurd hc (by decide)
    exact append (s := [c]) (of_item (by simp) hitem) (ih fun d hd => h d (by simp [hd]))

/-- A statement is an item if it begins like one. -/
theorem of_statement {i : Instruction} {c : Char} (ht : t.head? = some c)
    (hc : isCodeBlank c = false ∧ c ≠ '/' ∧ c ≠ '?')
    (h : ∀ s, readStatement? (t ++ s) = some (i, s)) : Instructs t [i] := by
  obtain ⟨code, rfl⟩ := List.head?_eq_some_iff.1 ht
  refine of_item (by simp) fun s => ?_
  have hread := h s
  rw [List.cons_append] at hread ⊢
  rw [readItem?, if_neg (by simp [hc.1]), hread]
  · rfl
  · rintro r rfl
    exact absurd rfl hc.2.1
  · rintro r rfl
    exact absurd rfl hc.2.2

/-- What stands between two tags is printed, but for a line end at its start. -/
theorem of_shown (ht : Lacks "<?" t) :
    Instructs (closeTag ++ (t ++ openTag)) [.print (dropLineEnd t)] := by
  have hcut (s : Text) : cut? openTag (t ++ (openTag ++ s)) = some (t, s) := by
    induction t with
    | nil => simp [cut?, openTag, after?]
    | cons c t ih =>
      have hnone : after? openTag (c :: (t ++ (openTag ++ s))) = none := by
        rw [Option.eq_none_iff_forall_ne_some]
        intro r hr
        obtain ⟨rfl, hmark⟩ : c = '<' ∧ t ++ (openTag ++ s) = '?' :: ('p' :: 'h' :: 'p' :: r) :=
          List.cons.inj (after?_eq_some.1 hr)
        cases t with
        | nil => simp [openTag] at hmark
        | cons d t =>
          obtain ⟨rfl, -⟩ := List.cons.inj hmark
          exact ht ⟨[], t, rfl⟩
      rw [List.cons_append, cut?, hnone, ih (ht.of_infix ⟨[c], [], by simp⟩)]
      rfl
  refine of_item (by simp [closeTag]) fun s => ?_
  rw [List.append_assoc, List.append_assoc]
  change readItem? ('?' :: '>' :: (t ++ (openTag ++ s))) = _
  rw [readItem?, hcut]

end Instructs

end WidgetCompiler.Php
