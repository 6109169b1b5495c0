import WidgetCompiler.Proofs.Control.Defaults
import WidgetCompiler.Proofs.Php.RegionRun
import WidgetCompiler.Proofs.Render.Agreement
import WidgetCompiler.Proofs.Render.Routine

/-!
# Preview and routine show the same text

Whoever runs a printed routine goes through the parts of its plan (`run_parts`), and where the parts
find what the preview finds, he prints what the preview shows.  But a line end directly behind a
`?>` is not printed.  The preview knows nothing of that: it shows the markup between two elements as
it stands, while in the routine a statement may stand before it.  So what the routine prints is the
preview of the parts without these line ends (`asPrinted`), up to blanks around it
(`run_routine_of_suited`).
-/

namespace WidgetCompiler.Render

open Text Markup Php

/-! ## Parts as they are printed -/

/-- The parts without the line ends directly behind code. -/
def behindCode : List Part → List Part
  | [] => []
  | .markup t :: ps => .markup (dropLineEnd t) :: behindCode ps
  | .echo value escape :: ps => .echo value escape :: behindCode ps
  | .linkAttributes var :: ps => .linkAttributes var :: behindCode ps
  | .ifSet var body :: ps => .ifSet var (behindCode body) :: behindCode ps

/-- Merged parts as a routine prints them: only markup at the very beginning keeps a line end at its
start. -/
def asPrinted : List Part → List Part
  | .markup t :: ps => .markup t :: behindCode ps
  | ps => behindCode ps

/-- The instructions of parts. -/
def partInstructions : List Part → List Instruction
  | [] => []
  | .markup t :: ps => .print t :: partInstructions ps
  | .echo value escape :: ps => echoInstruction value escape :: partInstructions ps
  | .linkAttributes var :: ps => linkInstructions var ++ partInstructions ps
  | .ifSet var body :: ps => .test (Value.var var).operand
    :: (partInstructions body ++ .endTest :: partInstructions ps)

theorem usesIn_behindCode (ps : List Part) : usesIn (behindCode ps) = usesIn ps := by
  fun_induction behindCode ps <;> simp_all [usesIn]

theorem usesIn_asPrinted (ps : List Part) : usesIn (asPrinted ps) = usesIn ps := by
  unfold asPrinted
  split
  · rw [usesIn, usesIn_behindCode, usesIn]
  · exact usesIn_behindCode _

theorem valuesIn_behindCode (ps : List Part) : valuesIn (behindCode ps) = valuesIn ps := by
  fun_induction behindCode ps <;> simp_all [valuesIn]

theorem valuesIn_asPrinted (ps : List Part) : valuesIn (asPrinted ps) = valuesIn ps := by
  unfold asPrinted
  split
  · rw [valuesIn, valuesIn_behindCode, valuesIn]
  · exact valuesIn_behindCode _

theorem callsOf_behindCode (ps : List Part) :
    callsOf (behindCode ps) = (callsOf ps).map Writer.Call.swallow := by
  fun_induction behindCode ps <;> simp_all [callsOf, Writer.Call.swallow]

theorem callsOf_asPrinted (ps : List Part) :
    callsOf (asPrinted ps) = Writer.swallowCalls (callsOf ps) := by
  cases ps with
  | nil => simp [asPrinted, behindCode, callsOf, Writer.swallowCalls]
  | cons p ps =>
    cases p <;> simp [asPrinted, behindCode, callsOf, callsOf_behindCode, Writer.swallowCalls,
      Writer.Call.swallow]

theorem isNamed_of_drawn {v : Value}
    (h : v.Drawn (fun n => IsCodeName n ∧ n ≠ settingsName) (fun _ => True)) : v.IsNamed := by
  intro name hname
  cases v with
  | setting id => simp [Value.name?] at hname
  | var n =>
    obtain rfl : n = name := by simpa [Value.name?] using hname
    exact h.1
  | url n =>
    obtain rfl : n = name := by simpa [Value.name?] using hname
    exact h.1

/-- Every piece of code that parts ask for is known to the reader. -/
theorem instructs_of_mem_callsOf {ps : List Part} (h : ∀ v ∈ valuesIn ps, v.IsNamed) {code : Text}
    (hc : .inlineCode code ∈ callsOf ps) : Instructs code (instructionsOf code) := by
  have known {is : List Instruction} (hread : Instructs code is) :
      Instructs code (instructionsOf code) := hread.instructionsOf_eq.symm ▸ hread
  cases codeOf_of_mem_callsOf hc with
  | echo hvalue escape => exact known (instructs_echo (h _ hvalue) escape)
  | link hvar => exact known (instructs_link (h _ hvar _ rfl))
  | ifSet hvar => exact known (instructs_ifSet (h _ hvar _ rfl))
  | endIf => exact known instructs_endIf

/-- What the calls for parts say are the instructions of the parts. -/
theorem instructions_callsOf {ps : List Part} (h : ∀ v ∈ valuesIn ps, v.IsNamed) :
    (callsOf ps).flatMap Writer.Call.instructions = partInstructions ps := by
  have hname {var : Text} (hv : (Value.var var).IsNamed) : IsCodeName var := hv var rfl
  fun_induction callsOf ps with
  | case1 => simp [partInstructions]
  | case2 t ps ih =>
    rw [valuesIn] at h
    simp [partInstructions, Writer.Call.instructions, ih h]
  | case3 value escape ps ih =>
    simp only [valuesIn, List.mem_cons, forall_eq_or_imp] at h
    simp [partInstructions, Writer.Call.instructions, ih h.2,
      (instructs_echo h.1 escape).instructionsOf_eq]
  | case4 var ps ih =>
    simp only [valuesIn, List.mem_cons, forall_eq_or_imp] at h
    simp [partInstructions, Writer.Call.instructions, ih h.2,
      (instructs_link (hname h.1)).instructionsOf_eq]
  | case5 var body ps ihbody ih =>
    simp only [valuesIn, List.mem_cons, List.mem_append, forall_eq_or_imp] at h
    have hif := (instructs_ifSet (hname h.1)).instructionsOf_eq
    simp only [List.flatMap_cons, List.flatMap_append, partInstructions, Writer.Call.instructions,
      ihbody fun v hv => h.2 v (.inl hv), ih fun v hv => h.2 v (.inr hv), hif,
      instructs_endIf.instructionsOf_eq, List.singleton_append]

/-! ## Running parts -/

/-- The functions that escape values do what the preview does in their place. -/
def Escapes (functions : Text → Text → Text) : Prop :=
  ∀ (e : Escape) (t : Text), functions e.function t = e.apply t

/-- A use finds what the preview finds, and no record asks for attributes. -/
def Use.Yields (values : Dictionary DefaultValue) (bindings : List Binding) (vars : Variables) :
    Use → Prop
  | .echo v => ∃ d, v.operand.value? vars = some d
      ∧ d.asString = v.evaluate values (environment values bindings)
  | .test name => ∃ d, (Value.var name).operand.value? vars = some d
      ∧ d.isEmpty = (slotOf (environment values bindings) name).asText.isEmpty
  | .attributes name => ∀ key, key ≠ urlKey → (Operand.held name [key]).isEmpty vars = true

section

variable {functions : Text → Text → Text} {values : Dictionary DefaultValue}
  {bindings : List Binding} {m : Machine}

/-- Where instructions are passed over, parts leave everything as it is. -/
theorem run_parts_of_not_acts (hm : m.acts = false) (ps : List Part) :
    m.run functions (partInstructions ps) = some m := by
  have hnot : ¬ m.acts = true := by simp [hm]
  fun_induction partInstructions ps generalizing m with
  | case1 => rfl
  | case2 t ps ih => rw [Machine.run_show, if_neg hnot, ih hm hnot]
  | case3 value escape ps ih =>
    rw [Machine.run, echoInstruction, Machine.step, if_neg hnot, Option.bind_some, ih hm hnot]
  | case4 var ps ih =>
    rw [linkInstructions, List.cons_append, List.cons_append, List.nil_append, Machine.run,
      attributeInstruction, Machine.step, if_neg hnot, Option.bind_some, Machine.run,
      attributeInstruction, Machine.step, if_neg hnot, Option.bind_some, ih hm hnot]
  | case5 var body ps ihbody ih =>
    have hinner : Machine.acts { m with tests := false :: m.tests } = false := rfl
    rw [Machine.run, Machine.step, if_neg hnot, Option.bind_some, Machine.run_append,
      ihbody hinner (by simp [hinner]), Option.bind_some, Machine.run, Machine.step, Option.bind_some]
    exact ih hm hnot

/-- An attribute that the record does not ask for is not printed. -/
theorem run_attribute {name key text : Text} (hm : m.acts = true)
    (h : (Operand.held name [key]).isEmpty m.vars = true) (is : List Instruction) :
    m.run functions (attributeInstruction name key text :: is) = m.run functions is := by
  have hprint : m.print [] = m := by simp [Machine.print]
  rw [Machine.run, attributeInstruction, Machine.step, if_pos hm, Expression.value?, if_pos h]
  change (some (m.print [])).bind _ = _
  rw [hprint, Option.bind_some]

/-- Where everything that parts look up is what the preview finds, they print what it shows. -/
theorem run_parts (hfunctions : Escapes functions) {ps : List Part} (hm : m.acts = true)
    (hu : ∀ u ∈ usesIn ps, u.Yields values bindings m.vars) :
    m.run functions (partInstructions ps)
      = some (m.print (previewParts values (environment values bindings) ps)) := by
  fun_induction partInstructions ps generalizing m with
  | case1 => simp [Machine.run, previewParts, Machine.print]
  | case2 t ps ih =>
    rw [usesIn] at hu
    rw [Machine.run_show, if_pos hm, ih (m := m.print t) hm hu, Machine.print_print, previewParts]
  | case3 value escape ps ih =>
    simp only [usesIn, List.mem_cons, forall_eq_or_imp] at hu
    obtain ⟨⟨d, hd, hstring⟩, hu⟩ := hu
    rw [Machine.run, echoInstruction, Machine.step, if_pos hm, Expression.value?, hd,
      Option.map_some, Option.bind_some, hstring]
    change (m.print (functions escape.function _)).run functions _ = _
    rw [hfunctions, ih (m := m.print _) hm hu, Machine.print_print, previewParts]
  | case4 var ps ih =>
    simp only [usesIn, List.mem_cons, forall_eq_or_imp] at hu
    have hkeys : ("is_external" : Text) ≠ urlKey ∧ ("nofollow" : Text) ≠ urlKey := by decide
    rw [linkInstructions, List.cons_append, List.cons_append, List.nil_append,
      run_attribute hm (hu.1 _ hkeys.1), run_attribute hm (hu.1 _ hkeys.2), ih hm hu.2, previewParts]
  | case5 var body ps ihbody ih =>
    simp only [usesIn, List.mem_cons, List.mem_append, forall_eq_or_imp] at hu
    obtain ⟨⟨d, hd, hempty⟩, hu⟩ := hu
    have hrest := ih (m := m.print (if (slotOf (environment values bindings) var).asText.isEmpty
      then [] else previewParts values (environment values bindings) body)) hm
      fun u hu' => hu u (.inr hu')
    rw [Machine.print_print] at hrest
    rw [Machine.run, Machine.step, if_pos hm, hd, Option.map_some, Option.bind_some, hempty,
      Machine.run_append, previewParts, ← hrest]
    split
    · next hslot =>
      have hnot : Machine.acts { m with tests := (!true) :: m.tests } = false := rfl
      rw [hslot, run_parts_of_not_acts hnot, Option.bind_some, Machine.run, Machine.step,
        Option.bind_some]
      simp [Machine.print]
    · next hslot =>
      have hacts : Machine.acts { m with tests := (!false) :: m.tests } = true := hm
      rw [Bool.eq_false_iff.2 hslot, ihbody hacts fun u hu' => hu u (.inl hu'), Option.bind_some,
        Machine.run, Machine.print, Machine.step, Option.bind_some]
      rfl

/-! ## What parts find -/

variable {b : Binding} {parts : List Part} {vars : Variables}

/-- A record that a plan makes or that the settings hold has nothing but an address. -/
theorem isEmpty_held {source : Source} (hlink : source.IsLink)
    (h : source.Sorted (HoldsText values) (HoldsLink values)) {key : Text} (hkey : key ≠ urlKey) :
    (((source.datum values).index? key).map Datum.isEmpty).getD true = true := by
  have hrecord (t : Text) :
      (((Datum.array [(urlKey, .string t)]).index? key).map Datum.isEmpty).getD true = true := by
    simp [Datum.index?, List.lookup_cons, beq_eq_false_iff_ne.2 hkey, Datum.isEmpty]
  have hsetting {id : Text} (hid : HoldsLink values id) :
      (((settingDatum values id).index? key).map Datum.isEmpty).getD true = true := by
    cases hv : values.find? id with
    | none => simp [settingDatum, hv, Datum.index?, Datum.isEmpty]
    | some v =>
      obtain ⟨t, rfl⟩ := hid v hv
      simpa [settingDatum, hv, datumOf] using hrecord t
  cases source with
  | setting id => exact hlink.elim
  | settingOr id fallback => exact hlink.elim
  | linkOrNull id =>
    rw [Source.datum]
    split
    · rfl
    · exact hsetting h
  | urlOr id fallback =>
    rw [Source.datum]
    split
    · exact hrecord fallback
    · exact hsetting h

/-- Where bindings and parts fit together and no binding gives up a `0`, the parts find what the
preview finds. -/
theorem yields_of_coherent (h : Bound values bindings vars)
    (hcoherent : Coherent (HoldsText values) (HoldsLink values) bindings parts)
    (hzero : ∀ b ∈ bindings, ¬ b.source.MissesZero values) {u : Use} (hu : u ∈ usesIn parts) :
    u.Yields values bindings vars := by
  have hagrees := (agrees_of_coherent h hcoherent).2 hzero u hu
  have hgrounded := hcoherent.grounded u hu
  cases u with
  | echo v =>
    have hnamed : v.IsNamed := by
      cases v with
      | setting id => exact fun n hn => by simp [Value.name?] at hn
      | var name =>
        obtain ⟨b, hb, rfl, -⟩ := hgrounded
        exact isNamed_var (h.named b hb)
      | url name =>
        obtain ⟨b, hb, rfl, -⟩ := hgrounded
        exact isNamed_url (h.named b hb)
    rw [Use.Agrees, operandValue?_toPhp hnamed] at hagrees
    exact Option.map_eq_some_iff.1 hagrees
  | test name =>
    obtain ⟨b, hb, rfl, -⟩ := hgrounded
    rw [Use.Agrees, operandValue?_toPhp (isNamed_var (h.named b hb))] at hagrees
    exact Option.map_eq_some_iff.1 hagrees
  | attributes name =>
    obtain ⟨b, hb, rfl, hlink⟩ := hgrounded
    intro key hkey
    have hvalue : (Operand.held b.var [key]).value? vars = (b.source.datum values).index? key := by
      simp only [Operand.value?, h.found b hb, Option.getD_some, Datum.indexAll?]
      exact Option.bind_fun_some _
    rw [Operand.isEmpty, hvalue]
    exact isEmpty_held hlink (hcoherent.sorted b hb) hkey

end

/-! ## Routines -/

theorem instructs_remark : Instructs ("// Widget markup\n" : Text) [] :=
  Instructs.of_item (by decide) fun s => by simp [readItem?, Php.afterComment]

section

variable {functions : Text → Text → Text} {values : Dictionary DefaultValue} {forest : List Element}

theorem instructs_headText {lineIndent : Text} (hindent : ∀ c ∈ lineIndent, isCodeBlank c = true)
    {bindings : List Binding} (hnames : ∀ b ∈ bindings, IsCodeName b.var) :
    Instructs (headText lineIndent bindings) (bindings.map Binding.instruction) := by
  have hline : Instructs ['\n'] [] := Instructs.of_blanks (by decide)
  have hremark : ("// Widget markup\n" : Text) = "// Widget markup" ++ ['\n'] := by decide
  have := ((instructs_bindingLines hindent hnames).append hline).append
    ((Instructs.of_blanks hindent).append instructs_remark)
  rw [hremark] at this
  simpa [headText] using this

/-- Parts that show nothing are blank in the preview, with or without line ends. -/
theorem allBlank_asPrinted (env : Dictionary Slot) {ps : List Part} (h : ps.any (·.isVisible) = false) :
    allBlank (previewParts values env (asPrinted ps)) = true := by
  have hbehind {ps : List Part} (h : ps.any (·.isVisible) = false) :
      allBlank (previewParts values env (behindCode ps)) = true := by
    induction ps with
    | nil => simp [behindCode, previewParts]
    | cons p ps ih =>
      rw [List.any_cons, Bool.or_eq_false_iff] at h
      cases p with
      | markup t =>
        have ht : allBlank t = true := by simpa [Part.isVisible] using h.1
        rw [behindCode, previewParts, allBlank_append, ih h.2, Writer.allBlank_dropLineEnd ht]
        rfl
      | _ => simp [Part.isVisible] at h
  cases ps with
  | nil => exact hbehind h
  | cons p ps =>
    rw [List.any_cons, Bool.or_eq_false_iff] at h
    cases p with
    | markup t =>
      have ht : allBlank t = true := by simpa [Part.isVisible] using h.1
      rw [asPrinted, previewParts, allBlank_append, ht, hbehind h.2]
      rfl
    | _ => simp [Part.isVisible] at h

/-- A printed routine, run with settings that suit the controls: where the writer comes back to
code by itself and no binding gives up a `0`, what is printed is the preview of the parts without
the line ends directly behind code. -/
theorem run_routine_of_suited (hfunctions : Escapes functions)
    (hsuited : ∀ b ∈ bindForest Catalog.builtin forest, Suited values b) {markup : Text}
    (hmarkup : Lacks "<?" markup) {indent lineIndent : Text}
    (hindent : ∀ c ∈ indent, isCodeBlank c = true)
    (hline : ∀ c ∈ lineIndent, isCodeBlank c = true) :
    let plan := planRender markup (bindForest Catalog.builtin forest)
    ¬ EndsInClose plan.parts → (∀ b ∈ plan.bindings, ¬ b.source.MissesZero values) →
    ∃ program m, readProgram? (routine indent lineIndent plan) = some program
      ∧ ({ vars := settingsVariables values } : Machine).run functions program = some m
      ∧ m.tests = []
      ∧ trim m.printed
        = trim (previewParts values (environment values plan.bindings) (asPrinted plan.parts)) := by
  intro plan hend hzero
  have hdrawn : Drawn (fun n => IsCodeName n ∧ n ≠ settingsName) (fun _ => True) (fun _ => True)
      plan.bindings plan.parts := drawn_planRender fun b _ => supplies_named b
  have hnames : ∀ b ∈ plan.bindings, IsCodeName b.var := fun b hb => (hdrawn.bindings b hb).1.1
  have hsettings : ∀ b ∈ plan.bindings, b.var ≠ settingsName := fun b hb =>
    (hdrawn.bindings b hb).1.2
  have hnamed : ∀ v ∈ valuesIn plan.parts, v.IsNamed := fun v hv =>
    isNamed_of_drawn (hdrawn.values v hv)
  have hbindings : ({ vars := settingsVariables values } : Machine).run functions
      (plan.bindings.map Binding.instruction)
      = some { vars := boundVariables values plan.bindings ++ settingsVariables values } :=
    run_bindings rfl keeps_settingsVariables hsettings
  cases hshows : plan.hasMarkup with
  | false =>
    have hroutine : routine indent lineIndent plan = bindingLines lineIndent plan.bindings := by
      rw [routine, Plan.write, hshows, foldl_bindings rfl]
      simp [Writer.finish, Writer.enterCode, Writer.start]
    refine ⟨_, _, ?_, hbindings, rfl, ?_⟩
    · rw [hroutine]
      exact (instructs_bindingLines hline hnames).readProgram?_eq
    · exact (trim_of_allBlank (allBlank_asPrinted _ hshows)).symm
  | true =>
    have hroutine : routine indent lineIndent plan
        = (({ Writer.start indent with text := headText lineIndent plan.bindings } :
            Writer).performAll (callsOf plan.parts)).enterCode.text := by
      rw [routine, write_of_hasMarkup hshows, finish_enterCode]
      rfl
    have hbound : Bound values plan.bindings
        (boundVariables values plan.bindings ++ settingsVariables values) :=
      bound_boundVariables (nodup_bindings (nodup_index_bindForest Catalog.builtin forest)) hnames
        hsettings
    have hyields : ∀ u ∈ usesIn (asPrinted plan.parts), u.Yields values plan.bindings
        (boundVariables values plan.bindings ++ settingsVariables values) := by
      intro u hu
      rw [usesIn_asPrinted] at hu
      exact yields_of_coherent hbound (coherent_of_suited hsuited markup) hzero hu
    have hlacks : ∀ t, .markup t ∈ callsOf plan.parts → Lacks "<?" t := fun t ht =>
      of_mem_planRender inherited_lacks hmarkup (mem_markupTexts.2 ht)
    have hparts := run_parts (m := ⟨_, [], []⟩) hfunctions rfl hyields
    have hswallow : partInstructions (asPrinted plan.parts)
        = (Writer.swallowCalls (callsOf plan.parts)).flatMap Writer.Call.instructions := by
      rw [← callsOf_asPrinted, instructions_callsOf (by rwa [valuesIn_asPrinted])]
    rw [hswallow] at hparts
    obtain ⟨region, is, htext, his, m, hm, htests, hprinted⟩ := Writer.run_written
      (w := { Writer.start indent with text := headText lineIndent plan.bindings })
      rfl hindent (region_planRender markup _) (fun hends => hend ((endsItself_callsOf _).1 hends))
      (exists_visible_call hshows) hlacks (fun _ hc => instructs_of_mem_callsOf hnamed hc)
      rfl rfl hparts rfl
    refine ⟨plan.bindings.map Binding.instruction ++ is, m, ?_, ?_, htests, hprinted⟩
    · rw [hroutine, htext]
      exact ((instructs_headText hline hnames).append his).readProgram?_eq
    · rw [Machine.run_append, hbindings, Option.bind_some]
      exact hm

/-! ## Defaults -/

/-- The settings hold the defaults of all controls of the elements, in a widget with or without its
own style sheet and script. -/
def HoldDefaults (forest : List Element) (values : Dictionary DefaultValue) : Prop :=
  let sections := (bindForest Catalog.builtin forest).flatMap elementSections
  values = defaultsOf sections ∨ ∃ css js, values = defaultsOf (sections ++ [customCodeSection css js])

/-- Defaults are of the kinds of their controls. -/
theorem suited_of_holdDefaults (h : HoldDefaults forest values) {b : BoundElement}
    (hb : b ∈ bindForest Catalog.builtin forest) : Suited values b := by
  have hregular : ∀ b ∈ bindForest Catalog.builtin forest, b.template.Regular := fun b hb =>
    (of_mem_bindFrom hb).1 ▸ Catalog.regular_builtin b.element.tag
  have hsuits {more : List Section} (hmore : (controlIdsOf more).Nodup)
      (hdigits : ∀ id ∈ controlIdsOf more, digitFree id = true) :
      Suited (defaultsOf ((bindForest Catalog.builtin forest).flatMap elementSections ++ more)) b := by
    intro f hf v hv
    rw [find?_defaults (nodup_ids (nodup_index_bindForest _ _) hregular hmore hdigits) hb hf] at hv
    obtain ⟨t, -, rfl⟩ := Option.map_eq_some_iff.1 hv
    split
    · next hurl => exact hurl
    · next hurl => exact Bool.eq_false_iff.2 hurl
  rcases h with rfl | ⟨css, js, rfl⟩
  · rw [← List.append_nil ((bindForest Catalog.builtin forest).flatMap elementSections)]
    exact hsuits (by simp [controlIdsOf]) (by simp [controlIdsOf])
  · have hids : controlIdsOf [customCodeSection css js] = ["custom_css", "custom_js"] := rfl
    exact hsuits (by rw [hids]; decide) (by rw [hids]; decide)

/-- The routine of a fragment, run with the defaults of its elements.  Where the writer comes back to
code by itself and no binding gives up a `0`, it prints the preview of the parts without the line
ends directly behind code, up to blanks around it.  Where there is no such line end, that is the
preview. -/
theorem run_routine_defaults (hfunctions : Escapes functions) (hvalues : HoldDefaults forest values)
    (markup : Text) {indent lineIndent : Text} (hindent : ∀ c ∈ indent, isCodeBlank c = true)
    (hline : ∀ c ∈ lineIndent, isCodeBlank c = true) :
    let plan := planRender (sanitize markup).markup (bindForest Catalog.builtin forest)
    ¬ EndsInClose plan.parts → (∀ b ∈ plan.bindings, ¬ b.source.MissesZero values) →
    ∃ program m, readProgram? (routine indent lineIndent plan) = some program
      ∧ ({ vars := settingsVariables values } : Machine).run functions program = some m
      ∧ m.tests = []
      ∧ trim m.printed
        = trim (previewParts values (environment values plan.bindings) (asPrinted plan.parts))
      ∧ (asPrinted plan.parts = plan.parts → trim m.printed = trim (plan.preview values)) := by
  intro plan hend hzero
  obtain ⟨program, m, hprogram, hrun, htests, hprinted⟩ := run_routine_of_suited hfunctions
    (fun b hb => suited_of_holdDefaults hvalues hb) (lacks_sanitize markup) hindent hline hend hzero
  refine ⟨program, m, hprogram, hrun, htests, hprinted, fun hsame => ?_⟩
  rw [hprinted, hsame]
  rfl

end

/-! ### Two headings -/

/-- What the functions that routines call do with values. -/
def escapeBy (function t : Text) : Text :=
  if function = "esc_url".toList then escapeUrl t else escapeText t

theorem escapes_escapeBy : Escapes escapeBy := fun e t => by
  cases e <;> rfl

/-- A heading and another. -/
def twoHeadings : List Element :=
  [Element.make "h1" [] none (some "A") [] [], Element.make "h2" [] none (some "B") [] []]

/-- The headings as they are written, on one line. -/
def spacedHeadings : Text := "<h1>A</h1> <h2>B</h2>"

/-- The headings as they are written, each on its line. -/
def brokenHeadings : Text := "<h1>A</h1>\n<h2>B</h2>"

/-- What the controls of the headings hold. -/
def headingValues : Dictionary DefaultValue :=
  defaultsOf ((bindForest Catalog.builtin twoHeadings).flatMap elementSections)

/-- What is planned for a heading. -/
def headingParts (index : Nat) : List Part :=
  let tag : Part := .echo (.var (localName "html_tag" index)) .attr
  wrapInLink (some (localName "link" index)) [.markup "<", tag, .markup ">",
    .echo (.var (localName "heading_text" index)) .html, .markup "</", tag, .markup ">"]

theorem parts_spacedHeadings :
    (planRender (sanitize spacedHeadings).markup (bindForest Catalog.builtin twoHeadings)).parts
      = headingParts 0 ++ .markup " " :: headingParts 1 := by
  have hkept : (sanitize spacedHeadings).markup = spacedHeadings := by decide +kernel
  have htags : scanStartTags spacedHeadings
      = [⟨"h1", "h1", 0, 4, [], false⟩, ⟨"h2", "h2", 11, 15, [], false⟩] := by decide +kernel
  rw [hkept, planRender, htags]
  cbv

theorem parts_brokenHeadings :
    (planRender (sanitize brokenHeadings).markup (bindForest Catalog.builtin twoHeadings)).parts
      = headingParts 0 ++ .markup "\n" :: headingParts 1 := by
  have hkept : (sanitize brokenHeadings).markup = brokenHeadings := by decide +kernel
  have htags : scanStartTags brokenHeadings
      = [⟨"h1", "h1", 0, 4, [], false⟩, ⟨"h2", "h2", 11, 15, [], false⟩] := by decide +kernel
  rw [hkept, planRender, htags]
  cbv

/-- The last part of the headings is no markup. -/
theorem not_endsInClose_headings (between : Text) :
    ¬ EndsInClose (headingParts 0 ++ .markup between :: headingParts 1) := by
  rintro ⟨t, ht, -⟩
  simp [headingParts, wrapInLink] at ht

/-- Headings on one line are printed as the preview shows them. -/
theorem run_routine_spacedHeadings :
    let plan := planRender (sanitize spacedHeadings).markup (bindForest Catalog.builtin twoHeadings)
    Escapes escapeBy ∧ HoldDefaults twoHeadings headingValues
      ∧ (∀ c ∈ bodyIndent, isCodeBlank c = true) ∧ ¬ EndsInClose plan.parts
      ∧ (∀ b ∈ plan.bindings, ¬ b.source.MissesZero headingValues)
      ∧ asPrinted plan.parts = plan.parts
      ∧ ∃ program m, readProgram? (routine bodyIndent bodyIndent plan) = some program
        ∧ ({ vars := settingsVariables headingValues } : Machine).run escapeBy program = some m
        ∧ trim m.printed = trim (plan.preview headingValues) := by
  intro plan
  have hvalues : HoldDefaults twoHeadings headingValues := .inl rfl
  have hindent : ∀ c ∈ bodyIndent, isCodeBlank c = true := by decide
  have hend : ¬ EndsInClose plan.parts := by
    rw [parts_spacedHeadings]
    exact not_endsInClose_headings _
  have hzero : ∀ b ∈ plan.bindings, ¬ b.source.MissesZero headingValues := by
    decide +kernel
  have hsame : asPrinted plan.parts = plan.parts := by
    rw [parts_spacedHeadings]
    cbv
  obtain ⟨program, m, hprogram, hrun, -, -, hprinted⟩ :=
    run_routine_defaults escapes_escapeBy hvalues spacedHeadings hindent hindent hend hzero
  exact ⟨escapes_escapeBy, hvalues, hindent, hend, hzero, hsame, program, m, hprogram, hrun,
    hprinted hsame⟩

/-- Headings on two lines are printed without the line end between them, which the preview shows. -/
theorem run_routine_brokenHeadings :
    let plan := planRender (sanitize brokenHeadings).markup (bindForest Catalog.builtin twoHeadings)
    Lacks closeTag brokenHeadings ∧ Escapes escapeBy ∧ HoldDefaults twoHeadings headingValues
      ∧ ∃ program m, readProgram? (routine bodyIndent bodyIndent plan) = some program
        ∧ ({ vars := settingsVariables headingValues } : Machine).run escapeBy program = some m
        ∧ trim m.printed = "<h1>A</h1><h2>B</h2>" ∧ trim (plan.preview headingValues) = brokenHeadings
        ∧ trim m.printed ≠ trim (plan.preview headingValues) := by
  intro plan
  have hvalues : HoldDefaults twoHeadings headingValues := .inl rfl
  have hindent : ∀ c ∈ bodyIndent, isCodeBlank c = true := by decide
  have hend : ¬ EndsInClose plan.parts := by
    rw [parts_brokenHeadings]
    exact not_endsInClose_headings _
  have hzero : ∀ b ∈ plan.bindings, ¬ b.source.MissesZero headingValues := by
    decide +kernel
  obtain ⟨program, m, hprogram, hrun, -, hprinted⟩ := run_routine_of_suited escapes_escapeBy
    (fun b hb => suited_of_holdDefaults hvalues hb) (lacks_sanitize brokenHeadings) hindent hindent
    hend hzero
  have henv : environment headingValues plan.bindings = ([("heading_text_0", .text "A"),
      ("heading_text_1", .text "B"), ("html_tag_0", .text "h1"), ("html_tag_1", .text "h2"),
      ("link_0", .null), ("link_1", .null)] : Dictionary Slot) := by
    decide +kernel
  have hrouted : trim m.printed = "<h1>A</h1><h2>B</h2>" := by
    rw [hprinted, henv, parts_brokenHeadings]
    generalize headingValues = values
    cbv
  have hshown : trim (plan.preview headingValues) = brokenHeadings := by
    rw [Plan.preview, henv, parts_brokenHeadings]
    generalize headingValues = values
    cbv
  refine ⟨by decide, escapes_escapeBy, hvalues, program, m, hprogram, hrun, hrouted, hshown, ?_⟩
  rw [hrouted, hshown]
  decide

end WidgetCompiler.Render
