import WidgetCompiler.Proofs.Control.Defaults
import WidgetCompiler.Proofs.Render.Preview
import WidgetCompiler.Proofs.Render.Printed
import WidgetCompiler.Proofs.Render.ReadBack
import WidgetCompiler.Proofs.Render.Uses

/-!
# Preview and routine look up the same values

The values that a plan shows are found twice: by the preview, and by whoever runs the printed
routine with the settings in a variable.  The bindings run without an error and leave each name
bound to `Source.datum` (`run_bindings`).  What is then looked up is what the preview finds, with
one exception: the preview takes a value for missing only if it is the empty text, while the printed
code asks `empty`, for which the text `0` is missing too.  `Source.MissesZero` names the sources
where this makes a difference, and `agrees_planRender` says that it is the only one.
-/

namespace WidgetCompiler.Render

open Text Markup Php

/-! ## The settings -/

/-- The value of a control as the settings hold it. -/
def datumOf : DefaultValue → Datum
  | .text t => .string t
  | .url address => .array [(urlKey, .string address)]
  | .code source => .string source

/-- The variables where a routine begins. -/
def settingsVariables (values : Dictionary DefaultValue) : Variables :=
  [(settingsName, .array (values.map fun e => (e.1, datumOf e.2)))]

/-- A value of a control of the kind that it belongs to. -/
def Suits (kind : FieldKind) : DefaultValue → Prop
  | .text _ => kind.holdsUrl = false
  | .url _ => kind.holdsUrl = true
  | .code _ => False

instance (kind : FieldKind) : (v : DefaultValue) → Decidable (Suits kind v)
  | .text _ => inferInstanceAs (Decidable (kind.holdsUrl = false))
  | .url _ => inferInstanceAs (Decidable (kind.holdsUrl = true))
  | .code _ => inferInstanceAs (Decidable False)

/-- The controls of an element that hold something hold an address where their kind asks for one,
and a text elsewhere. -/
def Suited (values : Dictionary DefaultValue) (b : BoundElement) : Prop :=
  ∀ f ∈ b.template.allFields, ∀ v ∈ values.find? (b.controlId f.id), Suits f.kind v

instance (values : Dictionary DefaultValue) (b : BoundElement) : Decidable (Suited values b) :=
  have (f : Field) : Decidable (∀ v ∈ values.find? (b.controlId f.id), Suits f.kind v) :=
    Option.decidableForallMem _
  List.decidableBAll _ b.template.allFields

section

variable (values : Dictionary DefaultValue)

/-- What the settings hold under an id. -/
def settingDatum (id : Text) : Datum := ((values.find? id).map datumOf).getD .null

/-- What a source gives when the routine runs. -/
def Source.datum : Source → Datum
  | .setting id => settingDatum values id
  | .settingOr id fallback =>
    if (settingDatum values id).isEmpty then .string fallback else settingDatum values id
  | .linkOrNull id =>
    if (addressOperand id).isEmpty (settingsVariables values) then .null else settingDatum values id
  | .urlOr id fallback =>
    if (addressOperand id).isEmpty (settingsVariables values) then .array [(urlKey, .string fallback)]
    else settingDatum values id

/-- The source holds the text `0`, which it gives up for something else. -/
def Source.MissesZero : Source → Prop
  | .setting _ => False
  | .settingOr id fallback => settingText values id = ['0'] ∧ fallback ≠ ['0']
  | .linkOrNull id => settingUrl? values id = some ['0']
  | .urlOr id fallback => settingUrl? values id = some ['0'] ∧ fallback ≠ ['0']

instance : (source : Source) → Decidable (source.MissesZero values)
  | .setting _ => inferInstanceAs (Decidable False)
  | .settingOr id fallback =>
    inferInstanceAs (Decidable (settingText values id = ['0'] ∧ fallback ≠ ['0']))
  | .linkOrNull id => inferInstanceAs (Decidable (settingUrl? values id = some ['0']))
  | .urlOr id fallback =>
    inferInstanceAs (Decidable (settingUrl? values id = some ['0'] ∧ fallback ≠ ['0']))

/-- The settings hold a text under the id, or nothing. -/
def HoldsText (id : Text) : Prop := ∀ v ∈ values.find? id, ∃ t, v = .text t

/-- The settings hold a record under the id, or nothing. -/
def HoldsLink (id : Text) : Prop := ∀ v ∈ values.find? id, ∃ address, v = .url address

end

/-! ## Looking up -/

/-- The value of a piece of code that is an operand and no more. -/
def operandValue? (vars : Variables) (code : Text) : Option Datum :=
  match readOperand? code with
  | some (o, []) => o.value? vars
  | _ => none

/-- A use finds when the routine runs what it finds in the preview: the text that is to be printed,
or the outcome of the test. -/
def Use.Agrees (values : Dictionary DefaultValue) (bindings : List Binding) (vars : Variables) :
    Use → Prop
  | .echo v => (operandValue? vars v.toPhp).map Datum.asString
      = some (v.evaluate values (environment values bindings))
  | .test name => (operandValue? vars (Value.var name).toPhp).map Datum.isEmpty
      = some (slotOf (environment values bindings) name).asText.isEmpty
  | .attributes _ => True

section

variable {values : Dictionary DefaultValue} {vars : Variables} {id : Text}

theorem lookup_map_datumOf (id : Text) :
    (values.map fun e => (e.1, datumOf e.2)).lookup id = (values.find? id).map datumOf := by
  induction values with
  | nil => rfl
  | cons e values ih =>
    obtain ⟨key, v⟩ := e
    rw [Dictionary.find?_cons, List.map_cons, List.lookup_cons, ih]
    by_cases h : id = key
    · simp [h]
    · simp [beq_eq_false_iff_ne.2 h, h]

/-- The settings are where they were before the routine began. -/
def Keeps (values : Dictionary DefaultValue) (vars : Variables) : Prop :=
  vars.lookup settingsName = (settingsVariables values).lookup settingsName

theorem keeps_settingsVariables : Keeps values (settingsVariables values) := rfl

theorem Keeps.lookup (h : Keeps values vars) :
    vars.lookup settingsName = some (.array (values.map fun e => (e.1, datumOf e.2))) := by
  rw [h, settingsVariables, List.lookup_cons_self]

theorem value?_setting (h : Keeps values vars) (id : Text) :
    (Value.setting id).operand.value? vars = some (settingDatum values id) := by
  have : vars.lookup settingsName = _ := h.lookup
  simp only [Value.operand, Value.variableName, Value.keys, Operand.value?, this, Option.getD_some,
    Datum.indexAll?, Datum.index?, Option.bind_some, lookup_map_datumOf]
  rfl

theorem isEmpty_congr {o : Operand} {vars' : Variables} (h : o.value? vars = o.value? vars') :
    o.isEmpty vars = o.isEmpty vars' := by
  rw [Operand.isEmpty, h, Operand.isEmpty]

theorem value?_address (h : Keeps values vars) (id : Text) :
    (addressOperand id).value? vars = (settingDatum values id).index? urlKey := by
  have : vars.lookup settingsName = _ := h.lookup
  simp only [addressOperand, Operand.value?, this, Option.getD_some, Datum.indexAll?, Datum.index?,
    Option.bind_some, lookup_map_datumOf, settingDatum]
  exact Option.bind_fun_some _

/-- The code of a source gives what the source gives. -/
theorem value?_source (h : Keeps values vars) (source : Source) :
    source.expression.value? vars = some (source.datum values) := by
  have haddress (id : Text) : (addressOperand id).isEmpty vars
      = (addressOperand id).isEmpty (settingsVariables values) :=
    isEmpty_congr ((value?_address h id).trans (value?_address keeps_settingsVariables id).symm)
  have hsetting (id : Text) : (Value.setting id).operand.isEmpty vars
      = (settingDatum values id).isEmpty := by
    rw [Operand.isEmpty, value?_setting h]
    rfl
  cases source with
  | setting id => exact value?_setting h id
  | settingOr id fallback =>
    rw [Source.expression, Expression.value?, Source.datum, hsetting]
    split
    · rfl
    · exact value?_setting h id
  | linkOrNull id =>
    rw [Source.expression, Expression.value?, Source.datum, haddress]
    split
    · rfl
    · exact value?_setting h id
  | urlOr id fallback =>
    rw [Source.expression, Expression.value?, Source.datum, haddress]
    split
    · rfl
    · exact value?_setting h id

/-! ## The bindings at work -/

/-- What the bindings leave behind, the last one first. -/
def boundVariables (values : Dictionary DefaultValue) (bindings : List Binding) : Variables :=
  (bindings.map fun b => (b.var, b.source.datum values)).reverse

/-- The bindings run one after the other, and each leaves its name bound to what its source gives. -/
theorem run_bindings {functions : Text → Text → Text} {m : Machine} (hacts : m.acts = true)
    (h : Keeps values m.vars) {bindings : List Binding}
    (hnames : ∀ b ∈ bindings, b.var ≠ settingsName) :
    m.run functions (bindings.map Binding.instruction)
      = some { m with vars := boundVariables values bindings ++ m.vars } := by
  induction bindings generalizing m with
  | nil => rfl
  | cons b bindings ih =>
    have hstep : m.step functions b.instruction
        = some { m with vars := (b.var, b.source.datum values) :: m.vars } := by
      simp [Binding.instruction, Machine.step, hacts, value?_source h]
    have hkeeps : Keeps values ((b.var, b.source.datum values) :: m.vars) := by
      have hne : (settingsName == b.var) = false :=
        beq_eq_false_iff_ne.2 (hnames b (by simp)).symm
      rw [Keeps, List.lookup_cons, hne]
      exact h
    have hrest := ih (m := { m with vars := (b.var, b.source.datum values) :: m.vars }) hacts hkeeps
      fun b' hb' => hnames b' (by simp [hb'])
    rw [List.map_cons, Machine.run, hstep, Option.bind_some, hrest]
    simp [boundVariables]

/-- The code of the bindings is read as the bindings, one instruction a line. -/
theorem instructs_bindingLines {lineIndent : Text} (hindent : ∀ c ∈ lineIndent, isCodeBlank c = true)
    {bindings : List Binding} (hnames : ∀ b ∈ bindings, IsCodeName b.var) :
    Instructs (bindingLines lineIndent bindings) (bindings.map Binding.instruction) := by
  rw [← List.flatMap_pure_eq_map]
  refine Instructs.flatMap fun b hb => ?_
  have := ((Instructs.of_blanks hindent).append (instructs_binding (hnames b hb))).append
    (Instructs.of_blanks (t := ['\n']) (by decide))
  simpa using this

/-- The names are bound to what the routine and the preview find under them. -/
structure Bound (values : Dictionary DefaultValue) (bindings : List Binding) (vars : Variables) :
    Prop where
  keeps : Keeps values vars
  named : ∀ b ∈ bindings, IsCodeName b.var
  found : ∀ b ∈ bindings, vars.lookup b.var = some (b.source.datum values)
  previewed : ∀ b ∈ bindings,
    slotOf (environment values bindings) b.var = b.source.evaluate values

/-- Where no name is bound twice, the bindings leave all names bound. -/
theorem bound_boundVariables {bindings : List Binding} (hnodup : (bindings.map (·.var)).Nodup)
    (hnames : ∀ b ∈ bindings, IsCodeName b.var) (hsettings : ∀ b ∈ bindings, b.var ≠ settingsName) :
    Bound values bindings (boundVariables values bindings ++ settingsVariables values) := by
  have hkeys : (boundVariables values bindings).map (·.1) = (bindings.map (·.var)).reverse := by
    simp [boundVariables, Function.comp_def]
  refine ⟨?_, hnames, fun b hb => ?_, fun b hb => slotOf_environment values hnodup hb⟩
  · have hnone : (boundVariables values bindings).lookup settingsName = none := by
      rw [List.lookup_eq_none_iff]
      intro e he
      obtain ⟨b, hb, rfl⟩ : ∃ b ∈ bindings, (b.var, b.source.datum values) = e := by
        simpa [boundVariables] using he
      simpa using (hsettings b hb).symm
    rw [Keeps, List.lookup_append, hnone, Option.none_or]
  · have hmem : (b.var, b.source.datum values) ∈ boundVariables values bindings := by
      simpa [boundVariables] using ⟨b, hb, rfl, rfl⟩
    rw [List.lookup_append, Dictionary.lookup_of_mem (hkeys ▸ List.nodup_reverse.2 hnodup) hmem,
      Option.some_or]

/-! ## What is looked up -/

variable {bindings : List Binding} {b : Binding}

theorem operandValue?_toPhp {v : Value} (h : v.IsNamed) :
    operandValue? vars v.toPhp = v.operand.value? vars := by
  have := readOperand?_value h (s := []) (by simp [Stops])
  rw [List.append_nil] at this
  rw [operandValue?, this]

theorem isNamed_var (h : IsCodeName b.var) : (Value.var b.var).IsNamed := by
  intro n hn
  obtain rfl : b.var = n := by simpa [Value.name?] using hn
  exact h

theorem isNamed_url (h : IsCodeName b.var) : (Value.url b.var).IsNamed := by
  intro n hn
  obtain rfl : b.var = n := by simpa [Value.name?] using hn
  exact h

theorem value?_var (h : Bound values bindings vars) (hb : b ∈ bindings) :
    operandValue? vars (Value.var b.var).toPhp = some (b.source.datum values) := by
  rw [operandValue?_toPhp (isNamed_var (h.named b hb))]
  simp [Value.operand, Value.variableName, Value.keys, Operand.value?, h.found b hb, Datum.indexAll?]

theorem value?_url (h : Bound values bindings vars) (hb : b ∈ bindings) :
    operandValue? vars (Value.url b.var).toPhp = (b.source.datum values).index? urlKey := by
  rw [operandValue?_toPhp (isNamed_url (h.named b hb))]
  simp only [Value.operand, Value.variableName, Value.keys, Operand.value?, h.found b hb,
    Option.getD_some, Datum.indexAll?]
  exact Option.bind_fun_some _

theorem isEmpty_string (t : Text) : (Datum.string t).isEmpty = true ↔ t = [] ∨ t = ['0'] := by
  simp [Datum.isEmpty]

/-- What the settings hold under the id of a text: the routine finds it empty if it is, and also if
it is `0`. -/
theorem setting_text (h : HoldsText values id) :
    (settingDatum values id).isEmpty = true ∧ settingText values id = []
      ∨ (settingDatum values id).isEmpty = true ∧ settingText values id = ['0']
      ∨ ∃ t, t ≠ [] ∧ t ≠ ['0'] ∧ settingDatum values id = .string t ∧ settingText values id = t := by
  cases hv : values.find? id with
  | none => simp [settingDatum, settingText, hv, Datum.isEmpty]
  | some v =>
    obtain ⟨t, rfl⟩ := h v hv
    by_cases hempty : t = []
    · simp [settingDatum, settingText, hv, datumOf, DefaultValue.asText, isEmpty_string, hempty]
    · by_cases hzero : t = ['0']
      · simp [settingDatum, settingText, hv, datumOf, DefaultValue.asText, isEmpty_string, hzero]
      · simp [settingDatum, settingText, hv, datumOf, DefaultValue.asText, hempty, hzero]

/-- What the settings hold under the id of a record, likewise. -/
theorem setting_link (h : HoldsLink values id) :
    (addressOperand id).isEmpty (settingsVariables values) = true ∧ settingUrl? values id = none
      ∨ (addressOperand id).isEmpty (settingsVariables values) = true
        ∧ settingUrl? values id = some ['0']
      ∨ ∃ t, t ≠ [] ∧ t ≠ ['0'] ∧ (addressOperand id).isEmpty (settingsVariables values) = false
        ∧ settingDatum values id = .array [(urlKey, .string t)] ∧ settingUrl? values id = some t := by
  have haddress : (addressOperand id).isEmpty (settingsVariables values)
      = (((settingDatum values id).index? urlKey).map Datum.isEmpty).getD true := by
    rw [Operand.isEmpty, value?_address keeps_settingsVariables]
  rw [haddress]
  cases hv : values.find? id with
  | none => simp [settingDatum, settingUrl?, hv, Datum.index?, Datum.isEmpty]
  | some v =>
    obtain ⟨t, rfl⟩ := h v hv
    have hfound : ((settingDatum values id).index? urlKey) = some (.string t) := by
      simp [settingDatum, hv, datumOf, Datum.index?]
    rw [hfound]
    by_cases hempty : t = []
    · simp [settingUrl?, hv, isEmpty_string, hempty]
    · by_cases hzero : t = ['0']
      · simp [settingUrl?, hv, isEmpty_string, hzero]
      · simp [settingDatum, settingUrl?, hv, datumOf, Datum.isEmpty, hempty, hzero]

/-- A text that is looked up by its name is the preview's, but for a `0` that is given up. -/
theorem asString_datum {source : Source} (htext : source.IsText)
    (h : source.Sorted (HoldsText values) (HoldsLink values)) :
    (source.datum values).asString = (source.evaluate values).asText ↔ ¬ source.MissesZero values := by
  cases source with
  | linkOrNull id => exact htext.elim
  | urlOr id fallback => exact htext.elim
  | setting id =>
    cases hv : values.find? id with
    | none =>
      simp [Source.datum, settingDatum, Source.evaluate, hv, Source.MissesZero, Datum.asString,
        Slot.asText]
    | some v =>
      obtain ⟨t, rfl⟩ := h v hv
      simp [Source.datum, settingDatum, Source.evaluate, hv, Source.MissesZero, datumOf,
        Datum.asString, Slot.asText, DefaultValue.asText]
  | settingOr id fallback =>
    rw [Source.datum, Source.evaluate, Source.MissesZero]
    rcases setting_text h with ⟨hempty, ht⟩ | ⟨hempty, ht⟩ | ⟨t, hne, hzero, hdatum, ht⟩
    · simp [hempty, ht, Datum.asString, Slot.asText]
    · simp [hempty, ht, Datum.asString, Slot.asText]
    · simp [hdatum, ht, hne, hzero, Datum.isEmpty, Datum.asString, Slot.asText]

/-- So is the address in a record. -/
theorem index?_datum {source : Source} (hlink : source.IsLink)
    (h : source.Sorted (HoldsText values) (HoldsLink values)) :
    ((source.datum values).index? urlKey).map Datum.asString = some (source.evaluate values).asUrl
      ↔ ¬ source.MissesZero values := by
  cases source with
  | setting id => exact hlink.elim
  | settingOr id fallback => exact hlink.elim
  | linkOrNull id =>
    rw [Source.datum, Source.evaluate, Source.MissesZero]
    rcases setting_link h with ⟨hempty, ht⟩ | ⟨hempty, ht⟩ | ⟨t, -, hzero, hfull, hdatum, ht⟩
    · simp [hempty, ht, Datum.index?, Datum.asString, Slot.asUrl]
    · simp [hempty, ht, Datum.index?, Datum.asString, Slot.asUrl]
    · simp [hfull, hdatum, ht, hzero, Datum.index?, Datum.asString, Slot.asUrl]
  | urlOr id fallback =>
    rw [Source.datum, Source.evaluate, Source.MissesZero]
    rcases setting_link h with ⟨hempty, ht⟩ | ⟨hempty, ht⟩ | ⟨t, -, hzero, hfull, hdatum, ht⟩
    · simp [hempty, ht, Datum.index?, Datum.asString, Slot.asUrl]
    · simp [hempty, ht, Datum.index?, Datum.asString, Slot.asUrl]
    · simp [hfull, hdatum, ht, hzero, Datum.index?, Datum.asString, Slot.asUrl]

/-- So is the outcome of a test. -/
theorem isEmpty_datum {source : Source} (hoptional : source.IsOptional)
    (h : source.Sorted (HoldsText values) (HoldsLink values)) :
    (source.datum values).isEmpty = (source.evaluate values).asText.isEmpty
      ↔ ¬ source.MissesZero values := by
  cases source with
  | linkOrNull id =>
    rw [Source.datum, Source.evaluate, Source.MissesZero]
    rcases setting_link h with ⟨hempty, ht⟩ | ⟨hempty, ht⟩ | ⟨t, hne, hzero, hfull, hdatum, ht⟩
    · simp [hempty, ht, Datum.isEmpty, Slot.asText]
    · simp [hempty, ht, Datum.isEmpty, Slot.asText]
    · simp [hfull, hdatum, ht, hne, hzero, Datum.isEmpty, Slot.asText]
  | _ => exact hoptional.elim

/-! ## Uses -/

/-- Which binding a use looks up, and that it can. -/
def Use.LooksUp (b : Binding) : Use → Prop
  | .echo (.setting _) => False
  | .echo (.var name) => b.var = name ∧ b.source.IsText
  | .echo (.url name) => b.var = name ∧ b.source.IsLink
  | .attributes _ => False
  | .test name => b.var = name ∧ b.source.IsOptional

theorem Binding.looksUp_use (b : Binding) : b.use.LooksUp b := by
  cases hb : b.source <;> simp [use, hb, Use.LooksUp, Source.IsText, Source.IsLink, Source.IsOptional]

/-- A use of a name agrees unless the binding of the name gives up a `0`. -/
theorem agrees_iff (h : Bound values bindings vars) (hb : b ∈ bindings)
    (hsorted : b.source.Sorted (HoldsText values) (HoldsLink values)) {u : Use} (hu : u.LooksUp b) :
    u.Agrees values bindings vars ↔ ¬ b.source.MissesZero values := by
  cases u with
  | attributes name => exact hu.elim
  | echo v =>
    cases v with
    | setting id => exact hu.elim
    | var name =>
      obtain ⟨rfl, htext⟩ := hu
      rw [Use.Agrees, value?_var h hb, Value.evaluate, h.previewed b hb, Option.map_some,
        Option.some_inj, asString_datum htext hsorted]
    | url name =>
      obtain ⟨rfl, hlink⟩ := hu
      rw [Use.Agrees, value?_url h hb, Value.evaluate, h.previewed b hb, index?_datum hlink hsorted]
  | test name =>
    obtain ⟨rfl, hoptional⟩ := hu
    rw [Use.Agrees, value?_var h hb, h.previewed b hb, Option.map_some, Option.some_inj,
      isEmpty_datum hoptional hsorted]

/-- The text of a setting that is printed as it is agrees in any case. -/
theorem agrees_setting (h : Bound values bindings vars) (hid : HoldsText values id) :
    (Use.echo (.setting id)).Agrees values bindings vars := by
  have hnamed : (Value.setting id).IsNamed := fun n hn => by simp [Value.name?] at hn
  rw [Use.Agrees, operandValue?_toPhp hnamed, value?_setting h.keeps, Value.evaluate]
  cases hv : values.find? id with
  | none => simp [settingDatum, settingText, hv, Datum.asString]
  | some v =>
    obtain ⟨t, rfl⟩ := hid v hv
    simp [settingDatum, settingText, hv, datumOf, Datum.asString, DefaultValue.asText]

/-- Where bindings and parts fit together, everything that the parts look up agrees if and only if
no binding gives up a `0`. -/
theorem agrees_of_coherent {parts : List Part} (h : Bound values bindings vars)
    (hcoherent : Coherent (HoldsText values) (HoldsLink values) bindings parts) :
    (∀ u ∈ usesIn parts, u.Agrees values bindings vars)
      ↔ ∀ b ∈ bindings, ¬ b.source.MissesZero values := by
  constructor
  · intro hagrees b hb
    exact (agrees_iff h hb (hcoherent.sorted b hb) b.looksUp_use).1 (hagrees _ (hcoherent.used b hb))
  · intro hzero u hu
    have hgrounded := hcoherent.grounded u hu
    have hfound {b : Binding} (hb : b ∈ bindings) (hlooks : u.LooksUp b) :
        u.Agrees values bindings vars :=
      (agrees_iff h hb (hcoherent.sorted b hb) hlooks).2 (hzero b hb)
    cases u with
    | attributes name => exact trivial
    | echo v =>
      cases v with
      | setting id => exact agrees_setting h hgrounded
      | var name =>
        obtain ⟨b, hb, hlooks⟩ := hgrounded
        exact hfound hb hlooks
      | url name =>
        obtain ⟨b, hb, hlooks⟩ := hgrounded
        exact hfound hb hlooks
    | test name =>
      obtain ⟨b, hb, hlooks⟩ := hgrounded
      exact hfound hb hlooks

end

/-! ## Plans -/

section

variable {values : Dictionary DefaultValue} {forest : List Element}

/-- Controls of the built-in catalog that are suited hold texts and records where plans ask for
them. -/
theorem sorts_of_suited {b : BoundElement} (h : Suited values b) (hb : b.template.Regular) :
    Sorts (HoldsText values) (HoldsLink values) b := by
  have hcontrol {field id : Text} (hid : b.control? field = some id) :
      ∃ f ∈ b.template.allFields, f.id = field ∧ ∀ v ∈ values.find? id, Suits f.kind v := by
    unfold BoundElement.control? at hid
    split at hid
    · next hhas =>
      obtain ⟨f, hf, rfl⟩ := Template.exists_of_hasField hhas
      obtain rfl := Option.some.inj hid
      exact ⟨f, hf, rfl, h f hf⟩
    · simp at hid
  constructor
  · intro field id hfield hid v hv
    obtain ⟨f, hf, rfl, hsuits⟩ := hcontrol hid
    have hkind := (hb.fields f hf).plain hfield
    cases v with
    | text t => exact ⟨t, rfl⟩
    | url t => exact absurd ((hsuits _ hv).symm.trans hkind) (by decide)
    | code t => exact (hsuits _ hv).elim
  · intro field id hfield hid v hv
    obtain ⟨f, hf, rfl, hsuits⟩ := hcontrol hid
    have hkind := (hb.fields f hf).url hfield
    cases v with
    | text t => exact absurd ((hsuits _ hv).symm.trans hkind) (by decide)
    | url t => exact ⟨t, rfl⟩
    | code t => exact (hsuits _ hv).elim

/-- Plans draw on nothing but names that can be read and that are not the name of the settings. -/
theorem supplies_named (b : BoundElement) :
    Supplies (fun n => IsCodeName n ∧ n ≠ settingsName) (fun _ => True) (fun _ => True) b where
  locals stem hstem := by
    refine ⟨isCodeName_localName hstem b.index, fun h => ?_⟩
    have hline : '_' ∉ settingsName := by decide
    exact hline (h ▸ List.mem_append_right _ (List.mem_cons_self ..))
  control _ := trivial
  tag := trivial
  attributes _ := trivial
  empty := trivial
  hash := trivial

/-- The assignments of a plan run without an error, whatever the settings hold, and bind its
names. -/
theorem exists_run_bindings (values : Dictionary DefaultValue) {lineIndent : Text}
    (hindent : ∀ c ∈ lineIndent, isCodeBlank c = true) (functions : Text → Text → Text)
    (markup : Text) (c : Catalog) (forest : List Element) :
    let plan := planRender markup (bindForest c forest)
    ∃ program m, readProgram? (bindingLines lineIndent plan.bindings) = some program
      ∧ ({ vars := settingsVariables values } : Machine).run functions program = some m
      ∧ Bound values plan.bindings m.vars := by
  intro plan
  have hdrawn : Drawn (fun n => IsCodeName n ∧ n ≠ settingsName) (fun _ => True) (fun _ => True)
      plan.bindings plan.parts := drawn_planRender fun b _ => supplies_named b
  have hnames : ∀ b ∈ plan.bindings, IsCodeName b.var := fun b hb => (hdrawn.bindings b hb).1.1
  have hsettings : ∀ b ∈ plan.bindings, b.var ≠ settingsName := fun b hb =>
    (hdrawn.bindings b hb).1.2
  exact ⟨_, _, (instructs_bindingLines hindent hnames).readProgram?_eq,
    run_bindings rfl keeps_settingsVariables hsettings,
    bound_boundVariables (nodup_bindings (nodup_index_bindForest c forest)) hnames hsettings⟩

theorem coherent_of_suited (h : ∀ b ∈ bindForest Catalog.builtin forest, Suited values b)
    (markup : Text) :
    Coherent (HoldsText values) (HoldsLink values)
      (planRender markup (bindForest Catalog.builtin forest)).bindings
      (planRender markup (bindForest Catalog.builtin forest)).parts :=
  coherent_planRender fun b hb => sorts_of_suited (h b hb)
    ((of_mem_bindFrom hb).1 ▸ Catalog.regular_builtin b.element.tag)

/-- The assignments of a plan run without an error, whatever the settings hold.  Everything that the
parts look up is then what the preview finds for the same values if and only if no binding gives up
a `0`. -/
theorem agrees_planRender (h : ∀ b ∈ bindForest Catalog.builtin forest, Suited values b)
    {lineIndent : Text} (hindent : ∀ c ∈ lineIndent, isCodeBlank c = true)
    (functions : Text → Text → Text) (markup : Text) :
    let plan := planRender markup (bindForest Catalog.builtin forest)
    ∃ program m, readProgram? (bindingLines lineIndent plan.bindings) = some program
      ∧ ({ vars := settingsVariables values } : Machine).run functions program = some m
      ∧ ((∀ u ∈ usesIn plan.parts, u.Agrees values plan.bindings m.vars)
        ↔ ∀ b ∈ plan.bindings, ¬ b.source.MissesZero values) := by
  intro plan
  obtain ⟨program, m, hprogram, hrun, hbound⟩ :=
    exists_run_bindings values hindent functions markup Catalog.builtin forest
  exact ⟨program, m, hprogram, hrun, agrees_of_coherent hbound (coherent_of_suited h markup)⟩

/-- A button that leads to the address `0`. -/
def buyButton : Element := Element.make "button" [] none (some "Buy") [("href", "0")] []

/-- The button as it is written. -/
def buyMarkup : Text := "<button href=\"0\">Buy</button>"

/-- The settings of the button: its text, and the address that it leads to now. -/
def buySettings (address : Text) : Dictionary DefaultValue :=
  [("button_0_button_link", .url address), ("button_0_button_text", .text "Buy")]

theorem bindings_buyButton : (planRender buyMarkup (bindForest Catalog.builtin [buyButton])).bindings
    = [⟨"button_link_0", .linkOrNull "button_0_button_link"⟩] := by
  decide +kernel

/-- With an ordinary address, the routine finds the text of the button and its link. -/
theorem agrees_planRender_address :
    let plan := planRender buyMarkup (bindForest Catalog.builtin [buyButton])
    (∀ b ∈ bindForest Catalog.builtin [buyButton], Suited (buySettings "/buy") b)
      ∧ (∀ c ∈ (" " : Text), isCodeBlank c = true)
      ∧ ∃ program m, readProgram? (bindingLines " " plan.bindings) = some program
        ∧ ({ vars := settingsVariables (buySettings "/buy") } : Machine).run (fun _ => id) program
          = some m
        ∧ ∀ u ∈ usesIn plan.parts, u.Agrees (buySettings "/buy") plan.bindings m.vars := by
  intro plan
  have hsuited : ∀ b ∈ bindForest Catalog.builtin [buyButton], Suited (buySettings "/buy") b := by
    decide +kernel
  have hindent : ∀ c ∈ (" " : Text), isCodeBlank c = true := by decide
  obtain ⟨program, m, hprogram, hrun, hagrees⟩ :=
    agrees_planRender hsuited hindent (fun _ => id) buyMarkup
  refine ⟨hsuited, hindent, program, m, hprogram, hrun, hagrees.2 fun b hb => ?_⟩
  rw [bindings_buyButton, List.mem_singleton] at hb
  subst hb
  change settingUrl? (buySettings "/buy") "button_0_button_link" ≠ some ['0']
  decide

/-- With the address `0`, the preview shows the link, and the routine finds that there is none. -/
theorem disagrees_planRender_zero :
    let plan := planRender buyMarkup (bindForest Catalog.builtin [buyButton])
    (∀ b ∈ bindForest Catalog.builtin [buyButton], Suited (buySettings "0") b)
      ∧ Use.test "button_link_0" ∈ usesIn plan.parts
      ∧ (slotOf (environment (buySettings "0") plan.bindings) "button_link_0").asText = "0"
      ∧ ∃ program m, readProgram? (bindingLines [] plan.bindings) = some program
        ∧ ({ vars := settingsVariables (buySettings "0") } : Machine).run (fun _ => id) program
          = some m
        ∧ (operandValue? m.vars "$button_link_0").map Datum.isEmpty = some true
        ∧ ¬ (Use.test "button_link_0").Agrees (buySettings "0") plan.bindings m.vars := by
  intro plan
  have hplan : plan.bindings = [⟨"button_link_0", .linkOrNull "button_0_button_link"⟩] :=
    bindings_buyButton
  have hindent : ∀ c ∈ ([] : Text), isCodeBlank c = true := by simp
  obtain ⟨program, m, hprogram, hrun, hbound⟩ := exists_run_bindings (buySettings "0") hindent
    (fun _ => id) buyMarkup Catalog.builtin [buyButton]
  have hmem : (⟨"button_link_0", .linkOrNull "button_0_button_link"⟩ : Binding) ∈ plan.bindings :=
    hplan ▸ List.mem_singleton_self _
  have hsuited : ∀ b ∈ bindForest Catalog.builtin [buyButton], Suited (buySettings "0") b := by
    decide +kernel
  have huse : Use.test "button_link_0" ∈ usesIn plan.parts :=
    (coherent_of_suited hsuited buyMarkup).used _ hmem
  have hslot : slotOf (environment (buySettings "0") plan.bindings) "button_link_0" = .link "0" := by
    rw [hplan]
    decide
  have hvalue : operandValue? m.vars "$button_link_0" = some .null := (value?_var hbound hmem).trans rfl
  refine ⟨hsuited, huse, by rw [hslot]; rfl, program, m, hprogram, hrun, ?_, ?_⟩
  · rw [hvalue]
    rfl
  · intro hagrees
    have : (operandValue? m.vars "$button_link_0").map Datum.isEmpty = _ := hagrees
    rw [hvalue, hslot] at this
    exact absurd this (by decide)

end

end WidgetCompiler.Render
