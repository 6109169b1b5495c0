import WidgetCompiler.Proofs.Php.Reading
import WidgetCompiler.Proofs.Render.PlanValues
import WidgetCompiler.Proofs.Text.Decimal

/-!
# The code of a plan read back

Whatever a plan writes in code is a statement that a reader knows, and he reads what was meant: a
value is read as an operand (`readOperand?_value`), a source as an expression
(`readExpression?_source`), and each statement as one instruction.  This takes names that can be
read as such, which the names in plans are (`isCodeName_localName`); ids and fallbacks stand in literals
and may be any texts.
-/

namespace WidgetCompiler.Render

open Text Php

/-! ## Values and sources -/

/-- The variable that holds the settings. -/
def settingsName : Text := "settings"

/-- The key of the address in a record. -/
def urlKey : Text := "url"

/-- The variable that a value is found in. -/
def Value.variableName : Value → Text
  | .setting _ => settingsName
  | .var name => name
  | .url name => name

/-- The keys that it is found under there. -/
def Value.keys : Value → List Text
  | .setting id => [id]
  | .var _ => []
  | .url _ => [urlKey]

/-- A value as it is asked for. -/
def Value.operand (v : Value) : Operand := .held v.variableName v.keys

/-- The address in the record that the settings hold under an id. -/
def addressOperand (id : Text) : Operand := .held settingsName [id, urlKey]

/-- A source as an expression. -/
def Source.expression : Source → Expression
  | .setting id => .operand (Value.setting id).operand
  | .settingOr id fallback =>
    .unlessEmpty (Value.setting id).operand (Value.setting id).operand (.literal fallback)
  | .linkOrNull id => .unlessEmpty (addressOperand id) (Value.setting id).operand .null
  | .urlOr id fallback =>
    .unlessEmpty (addressOperand id) (Value.setting id).operand (.record urlKey fallback)

/-- The name in a value, if there is one, can be read. -/
def Value.IsNamed (v : Value) : Prop := ∀ name ∈ v.name?, IsCodeName name

section

variable {name : Text}

theorem isCodeName_settingsName : IsCodeName settingsName := ⟨by decide, by decide⟩

theorem isCodeName_localName {stem : Text} (h : stem ∈ stems) (index : Nat) :
    IsCodeName (localName stem index) := by
  have hstem : ∀ stem ∈ stems, stem.head?.any isNameHead = true ∧ ∀ c ∈ stem, isNameChar c = true := by
    decide
  obtain ⟨hhead, hchars⟩ := hstem stem h
  refine ⟨?_, fun c hc => ?_⟩
  · cases stem with
    | nil => exact absurd hhead (by simp)
    | cons c stem => exact hhead
  · rcases List.mem_append.1 hc with hc | hc
    · exact hchars c hc
    · rcases List.mem_cons.1 hc with rfl | hc
      · decide
      · have := isDigit_of_mem_decimal hc
        simp [isNameChar, Char.isAlphanum, this]

theorem urlText_eq : ("['url']" : Text) = keyText urlKey := by decide

theorem toPhp_setting (id : Text) :
    (Value.setting id).toPhp = '$' :: (settingsName ++ keyText id) := by
  have hopen : ("$settings[" : Text) = '$' :: (settingsName ++ ['[']) := by decide
  change ("$settings[" : Text) ++ singleQuoted id ++ ("]" : Text) = _
  rw [hopen]
  simp [keyText, singleQuoted]

theorem Value.toPhp_eq (v : Value) : v.toPhp = '$' :: (v.variableName ++ v.keys.flatMap keyText) := by
  cases v with
  | setting id =>
    rw [toPhp_setting]
    simp [variableName, keys]
  | var name => exact (congrArg ('$' :: ·) (List.append_nil name)).symm
  | url name =>
    change '$' :: name ++ ("['url']" : Text) = _
    rw [urlText_eq]
    simp [variableName, keys]

theorem readOperand?_value {v : Value} (h : v.IsNamed) {s : Text} (hs : Stops s) :
    readOperand? (v.toPhp ++ s) = some (v.operand, s) := by
  have hname : IsCodeName v.variableName := by
    cases v with
    | setting id => exact isCodeName_settingsName
    | var name => exact h name rfl
    | url name => exact h name rfl
  have hkeys : v.keys.length ≤ 2 := by cases v <;> simp [Value.keys]
  rw [Value.toPhp_eq, List.cons_append, List.append_assoc, readOperand?_held hname hkeys hs]
  rfl

theorem readOperand?_setting (id : Text) {s : Text} (hs : Stops s) :
    readOperand? ((Value.setting id).toPhp ++ s) = some ((Value.setting id).operand, s) :=
  readOperand?_value (v := .setting id) (fun _ h => by simp [Value.name?] at h) hs

theorem readOperand?_address (id : Text) {s : Text} (hs : Stops s) :
    readOperand? ((Value.setting id).toPhp ++ "['url']" ++ s) = some (addressOperand id, s) := by
  have hread : readOperand? ('$' :: (settingsName ++ ([id, urlKey].flatMap keyText ++ s)))
      = some (addressOperand id, s) := readOperand?_held isCodeName_settingsName (by simp) hs
  rw [toPhp_setting, urlText_eq]
  simpa using hread

/-- A choice is read in its three parts. -/
theorem readExpression?_unlessEmpty {tested value other : Text} {o p q : Operand} {s : Text}
    (htested : ∀ {s}, Stops s → readOperand? (tested ++ s) = some (o, s))
    (hvalue : ∀ {s}, Stops s → readOperand? (value ++ s) = some (p, s))
    (hother : readOperand? (other ++ s) = some (q, s)) :
    readExpression? ("!empty(" ++ (tested ++ (") ? " ++ (value ++ (" : " ++ (other ++ s))))))
      = some (.unlessEmpty o p q, s) := by
  have hthen : Stops (") ? " ++ (value ++ (" : " ++ (other ++ s)))) := by simp [Stops]
  have helse : Stops (" : " ++ (other ++ s)) := by simp [Stops]
  rw [readExpression?, after?_append]
  simp only [htested hthen, after?_append, hvalue helse, hother, bind, Option.bind_some, pure]

theorem readExpression?_source (source : Source) {s : Text} (hs : Stops s) :
    readExpression? (source.toPhp ++ s) = some (source.expression, s) := by
  cases source with
  | setting id =>
    have hnone : after? "!empty(" ((Value.setting id).toPhp ++ s) = none := by
      simp [toPhp_setting, after?]
    change readExpression? ((Value.setting id).toPhp ++ s) = _
    rw [readExpression?, hnone]
    simp [readOperand?_setting id hs, Source.expression]
  | settingOr id fallback =>
    unfold Source.toPhp
    simp only [List.append_assoc]
    exact readExpression?_unlessEmpty (readOperand?_setting id) (readOperand?_setting id)
      (readOperand?_literal fallback s)
  | linkOrNull id =>
    have hthen : ("['url']) ? " : Text) = "['url']" ++ ") ? " := by decide
    have helse : (" : null" : Text) = " : " ++ "null" := by decide
    have := readExpression?_unlessEmpty (readOperand?_address id) (readOperand?_setting id)
      (readOperand?_null s)
    unfold Source.toPhp
    rw [hthen, helse]
    simp only [List.append_assoc] at this ⊢
    exact this
  | urlOr id fallback =>
    have hthen : ("['url']) ? " : Text) = "['url']" ++ ") ? " := by decide
    have helse : (" : ['url' => " : Text)
        = " : " ++ ("['" ++ (escapeSingle urlKey ++ ['\'', ' ', '=', '>', ' '])) := by decide
    have := readExpression?_unlessEmpty (readOperand?_address id) (readOperand?_setting id)
      (readOperand?_record urlKey fallback s)
    unfold Source.toPhp
    rw [hthen, helse]
    simp only [List.append_assoc] at this ⊢
    simpa [recordText, Source.expression] using this

/-! ## Statements -/

/-- A binding as an instruction. -/
def Binding.instruction (b : Binding) : Instruction := .assign b.var b.source.expression

theorem instructs_binding {b : Binding} (h : IsCodeName b.var) : Instructs b.toPhp [b.instruction] := by
  refine Instructs.of_statement rfl (c := '$') (by decide) fun s => ?_
  have hassign : ∀ c ∈ (" = " ++ (b.source.toPhp ++ (";" ++ s)) : Text).head?,
      isNameChar c = false := by simp [isNameChar]
  have hend : Stops (";" ++ s) := by simp [Stops]
  unfold Binding.toPhp
  simp only [List.cons_append, List.append_assoc]
  rw [readStatement?, readAssign?, readName?_append h hassign]
  simp only [bind, Option.bind_some, after?_append, readExpression?_source b.source hend, pure]
  rfl

/-- The instruction that prints a value. -/
def echoInstruction (value : Value) (escape : Escape) : Instruction :=
  .echo (some escape.function) (.operand value.operand)

theorem readExpression?_value {v : Value} (h : v.IsNamed) {s : Text} (hs : Stops s) :
    readExpression? (v.toPhp ++ s) = some (.operand v.operand, s) := by
  have hnone : after? "!empty(" (v.toPhp ++ s) = none := by
    rw [Value.toPhp_eq]
    simp [after?]
  rw [readExpression?, hnone, readOperand?_value h hs]
  rfl

theorem instructs_echo {value : Value} (h : value.IsNamed) (escape : Escape) :
    Instructs (echoStatement value escape) [echoInstruction value escape] := by
  refine Instructs.of_statement (c := 'e') rfl (by decide) fun s => ?_
  have hfunction : IsCodeName escape.function := by cases escape <;> exact ⟨by decide, by decide⟩
  have hopen : ∀ c ∈ ("(" ++ (value.toPhp ++ (");" ++ s)) : Text).head?, isNameChar c = false := by
    simp [isNameChar]
  have hend : Stops (");" ++ s) := by simp [Stops]
  unfold echoStatement
  simp only [List.append_assoc]
  change (after? "ho " ("ho " ++ (escape.function ++ ("(" ++ (value.toPhp ++ (");" ++ s)))))).bind
    readEcho? = _
  rw [after?_append, Option.bind_some, readEcho?, readName?_append hfunction hopen]
  change ((readExpression? (value.toPhp ++ (");" ++ s))).bind _) = _
  rw [readExpression?_value h hend]
  simp only [bind, Option.bind_some, after?_append, pure]
  rfl

theorem instructs_ifSet {var : Text} (h : IsCodeName var) :
    Instructs ("if ($" ++ var ++ ") :") [.test (Value.var var).operand] := by
  refine Instructs.of_statement (c := 'i') rfl (by decide) fun s => ?_
  have hend : Stops (") :" ++ s) := by simp [Stops]
  have hread := readOperand?_value (v := .var var) (fun n hn => by
    obtain rfl : var = n := by simpa [Value.name?] using hn
    exact h) hend
  simp only [List.append_assoc]
  change (after? "f (" ("f (" ++ ((Value.var var).toPhp ++ (") :" ++ s)))).bind readTest? = _
  rw [after?_append, Option.bind_some, readTest?, hread]
  simp only [bind, Option.bind_some, after?_append, pure]

theorem instructs_endIf : Instructs "endif;" [.endTest] := by
  refine Instructs.of_statement (c := 'e') rfl (by decide) fun s => ?_
  change (after? "endif;" ("endif;" ++ s)).map _ = _
  rw [after?_append]
  rfl

/-- The instruction that prints an attribute if a record asks for it. -/
def attributeInstruction (var key text : Text) : Instruction :=
  .echo none (.unlessEmpty (.held var [key]) (.literal text) (.literal []))

/-- Such an instruction as a statement. -/
def attributeStatement (var key text : Text) : Text :=
  "echo " ++ ("!empty(" ++ ('$' :: (var ++ keyText key) ++ (") ? " ++ (singleQuoted text
    ++ (" : " ++ (singleQuoted [] ++ ";"))))))

theorem instructs_attribute {var : Text} (h : IsCodeName var) (key text : Text) :
    Instructs (attributeStatement var key text) [attributeInstruction var key text] := by
  refine Instructs.of_statement (c := 'e') rfl (by decide) fun s => ?_
  have hheld {s : Text} (hs : Stops s) :
      readOperand? ('$' :: (var ++ keyText key) ++ s) = some (.held var [key], s) := by
    have hread : readOperand? ('$' :: (var ++ ([key].flatMap keyText ++ s)))
        = some (.held var [key], s) := readOperand?_held h (by simp) hs
    simpa using hread
  have hread := readExpression?_unlessEmpty hheld (fun {s} _ => readOperand?_literal text s)
    (readOperand?_literal [] (";" ++ s))
  have hname : readName? ("!empty(" ++ ('$' :: (var ++ keyText key) ++ (") ? " ++ (singleQuoted text
      ++ (" : " ++ (singleQuoted [] ++ (";" ++ s))))))) = none := by
    rw [readName?, if_neg]
    simp [isNameHead]
  unfold attributeStatement
  simp only [List.append_assoc] at hread hname ⊢
  change (after? "ho " ("ho " ++ _)).bind readEcho? = _
  rw [after?_append, Option.bind_some, readEcho?, hname]
  change (readExpression? _).bind _ = _
  rw [hread]
  simp only [bind, Option.bind_some, after?_append, pure]
  rfl

/-- The attributes of a link are two statements. -/
theorem linkStatements_eq (var : Text) : linkStatements var
    = attributeStatement var "is_external" " target=\"_blank\"" ++ (' '
      :: attributeStatement var "nofollow" " rel=\"nofollow\"") := by
  have hopen : ("echo !empty($" : Text) = "echo " ++ ("!empty(" ++ ['$']) := by decide
  have htarget : ("['is_external']) ? ' target=\"_blank\"' : ''; echo !empty($" : Text)
      = keyText "is_external" ++ (") ? " ++ (singleQuoted " target=\"_blank\"" ++ (" : "
        ++ (singleQuoted [] ++ (";" ++ (' ' :: ("echo " ++ ("!empty(" ++ ['$']))))))))  := by
    decide
  have hrel : ("['nofollow']) ? ' rel=\"nofollow\"' : '';" : Text)
      = keyText "nofollow" ++ (") ? " ++ (singleQuoted " rel=\"nofollow\"" ++ (" : "
        ++ (singleQuoted [] ++ ";")))) := by
    decide
  unfold linkStatements attributeStatement
  rw [hopen, htarget, hrel]
  simp only [List.append_assoc, List.cons_append, List.nil_append]

/-- The instructions that print the attributes of a link. -/
def linkInstructions (var : Text) : List Instruction :=
  [attributeInstruction var "is_external" " target=\"_blank\"",
    attributeInstruction var "nofollow" " rel=\"nofollow\""]

theorem instructs_link {var : Text} (h : IsCodeName var) :
    Instructs (linkStatements var) (linkInstructions var) := by
  rw [linkStatements_eq]
  exact (instructs_attribute h _ _).append
    ((Instructs.of_blanks (t := [' ']) (by decide)).append (instructs_attribute h _ _))

end

end WidgetCompiler.Render
