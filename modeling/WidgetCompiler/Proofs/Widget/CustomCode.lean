import WidgetCompiler.Proofs.Php.Transitions
import WidgetCompiler.Proofs.Text.Places
import WidgetCompiler.Widget.Source

/-!
# The end of the method that shows the widget

Behind the plan, the method prints the style sheet and the script that the settings hold, each in a
block of its own: lines of code up to the condition, and in it a value between two pieces of markup
(`blockText`).  What is written does not depend on the plan, since the markup of a block does not end
in a `?>` that a writer could take back (`performAll_blockCalls`); so the method is what is written
for its plan, and behind it always the same text (`renderBody_eq`).
-/

namespace WidgetCompiler

open Text Php

/-! ## Blocks -/

/-- What is asked for in order to show a value on a condition, which the last of the lines begins. -/
def blockCalls (lines : List Text) (opening code closing : Text) : List Writer.Call :=
  .blankLine :: lines.map .line
    ++ [.setIndent blockIndent, .leaveCode, .markup opening, .inlineCode code, .markup closing,
      .enterCode, .setIndent bodyIndent, .line (bodyIndent ++ "\x7d")]

/-- The markup of a block with its value, from behind the `?>` to the end of the line on which code is
entered. -/
def shownValue (opening code closing : Text) : Text :=
  '\n' :: opening ++ (openTag ++ ' ' :: code ++ ' ' :: closeTag
    ++ (closing ++ blockIndent ++ (openTag ++ ['\n'])))

/-- A block as it is written. -/
def blockText (lines : List Text) (opening code closing : Text) : Text :=
  joinLines ([] :: lines) ++ (blockIndent ++ closeTag ++ (shownValue opening code closing
    ++ joinLines [bodyIndent ++ "\x7d"]))

section

variable {w : Writer} {opening code closing : Text}

/-- Lines of code behind code. -/
theorem performAll_lines (hw : w.mode = .code) (lines : List Text) :
    w.performAll (lines.map .line) = { w with text := w.text ++ joinLines lines } := by
  induction lines generalizing w with
  | nil => simp [Writer.performAll, joinLines]
  | cons l lines ih =>
    rw [List.map_cons, Writer.performAll, List.foldl_cons, Writer.perform, Writer.line_of_code hw]
    have := ih (w := { w with text := w.text ++ l ++ ['\n'] }) hw
    rw [Writer.performAll] at this
    rw [this]
    simp [joinLines]

/-- Code is entered on a line of its own behind markup that ends with a line, but not in a `?>`. -/
theorem Php.Writer.enterCode_behind_line (hw : w.mode = .markup) {front : Text}
    (htext : w.text = front ++ closing) (hends : EndsApart closeTag closing)
    (hlast : closing.getLast? = some '\n') :
    w.enterCode = { w with text := w.text ++ w.indent ++ openTag ++ ['\n'], mode := .code } := by
  have hclosing : closing ≠ [] := by
    rintro rfl
    simp at hlast
  have hkept : Writer.takeBackClose? w.text = none := by
    rw [htext]
    simp [Writer.takeBackClose?, mt endsWith_iff.1 (hends.not_suffix front)]
  have hend : w.text.getLast? = some '\n' := by
    rw [htext, List.getLast?_append_of_ne_nil _ hclosing, hlast]
  simp [Writer.enterCode, hw, hkept, hend]

/-- A value between markup that ends with a line, but not in a `?>`. -/
theorem performAll_value (hw : w.mode = .code) (hopening : allBlank opening = false)
    (hends : EndsApart closeTag closing) (hlast : closing.getLast? = some '\n') :
    w.performAll [.leaveCode, .markup opening, .inlineCode code, .markup closing, .enterCode]
      = { w with text := w.text ++ w.indent ++ closeTag ++ ('\n' :: opening
          ++ (openTag ++ ' ' :: code ++ ' ' :: closeTag
            ++ (closing ++ w.indent ++ (openTag ++ ['\n'])))) } := by
  have hopening' : opening ≠ [] := by
    rintro rfl
    exact absurd hopening (by decide)
  have hclosing : closing ≠ [] := by
    rintro rfl
    simp at hlast
  have hshown : w.performAll [.leaveCode, .markup opening, .inlineCode code, .markup closing]
      = { w with
          text := w.text ++ w.indent ++ closeTag ++ ['\n'] ++ opening ++ openTag ++ ' ' :: code
            ++ ' ' :: closeTag ++ closing
          mode := .markup } := by
    simp [Writer.performAll, Writer.perform, Writer.leaveCode, Writer.markup, Writer.inlineCode, hw,
      hopening', hclosing]
  have henter := Writer.performAll_concat w
    [.leaveCode, .markup opening, .inlineCode code, .markup closing] .enterCode
  rw [List.cons_append, List.cons_append, List.cons_append, List.cons_append, List.nil_append] at henter
  rw [henter, hshown, Writer.perform, Writer.enterCode_behind_line rfl rfl hends hlast, hw]
  simp

/-- A block is written the same behind any text. -/
theorem performAll_blockCalls (w : Writer) (lines : List Text) (hopening : allBlank opening = false)
    (hends : EndsApart closeTag closing) (hlast : closing.getLast? = some '\n') :
    w.performAll (blockCalls lines opening code closing)
      = ⟨w.enterCode.text ++ blockText lines opening code closing, .code, bodyIndent⟩ := by
  have hsplit : blockCalls lines opening code closing
      = .blankLine :: (lines.map .line ++ (.setIndent blockIndent
        :: ([.leaveCode, .markup opening, .inlineCode code, .markup closing, .enterCode]
          ++ [.setIndent bodyIndent, .line (bodyIndent ++ "\x7d")]))) := by
    simp [blockCalls]
  obtain ⟨text, indent, hcode⟩ : ∃ text indent, w.enterCode = ⟨text, .code, indent⟩ :=
    ⟨w.enterCode.text, w.enterCode.indent, by rw [← w.mode_enterCode]⟩
  have hblank : w.perform .blankLine = ⟨text ++ ['\n'], .code, indent⟩ := by
    rw [Writer.perform, Writer.blankLine, Writer.line, hcode]
    simp
  calc w.performAll (blockCalls lines opening code closing)
      = (((⟨text ++ ['\n'], .code, indent⟩ : Writer).performAll (lines.map .line)).performAll
          (.setIndent blockIndent :: ([.leaveCode, .markup opening, .inlineCode code,
            .markup closing, .enterCode]
              ++ [.setIndent bodyIndent, .line (bodyIndent ++ "\x7d")]))) := by
        rw [hsplit, ← Writer.performAll_append, ← hblank]
        rfl
    _ = (((⟨text ++ ['\n'] ++ joinLines lines, .code, blockIndent⟩ : Writer).performAll
          [.leaveCode, .markup opening, .inlineCode code, .markup closing, .enterCode]).performAll
            [.setIndent bodyIndent, .line (bodyIndent ++ "\x7d")]) := by
        rw [performAll_lines rfl, ← Writer.performAll_append]
        rfl
    _ = ⟨w.enterCode.text ++ blockText lines opening code closing, .code, bodyIndent⟩ := by
        rw [performAll_value rfl hopening hends hlast, Writer.performAll, List.foldl_cons,
          List.foldl_cons, List.foldl_nil, Writer.perform, Writer.perform, Writer.setIndent,
          Writer.line_of_code rfl, hcode]
        simp [blockText, shownValue, joinLines]

end

/-! ## The blocks of the method -/

/-- The lines that begin the block for the style sheet. -/
def styleLines : List Text :=
  [bodyIndent ++ "if (!empty($settings['custom_css'])) \x7b",
    blockIndent ++ "$custom_css = str_replace('selector', '" ++ Style.wrapperPlaceholder
      ++ "', $settings['custom_css']);",
    blockIndent ++ "$custom_css = str_replace('" ++ Style.wrapperPlaceholder
      ++ "', '.elementor-element-' . $this->get_id(), $custom_css);"]

/-- What is shown before the style sheet. -/
def styleOpening : Text := blockIndent ++ "<style>\n" ++ blockIndent ++ "    "

/-- What is shown behind the style sheet. -/
def styleClosing : Text := "\n" ++ blockIndent ++ "</style>\n"

/-- The line that begins the block for the script. -/
def scriptLines : List Text := [bodyIndent ++ "if (!empty($settings['custom_js'])) \x7b"]

/-- What is shown before the script. -/
def scriptOpening : Text :=
  blockIndent ++ "<script>\n" ++ blockIndent ++ "    (function($) \x7b\n" ++ blockIndent
    ++ "        $(document).ready(function() \x7b\n" ++ blockIndent ++ "            "

/-- What is shown behind the script. -/
def scriptClosing : Text :=
  "\n" ++ blockIndent ++ "        \x7d);\n" ++ blockIndent ++ "    \x7d)(jQuery);\n" ++ blockIndent
    ++ "</script>\n"

/-- What the method runs behind the plan. -/
def customCode : Text :=
  blockText styleLines styleOpening "echo $custom_css;" styleClosing
    ++ blockText scriptLines scriptOpening "echo $settings['custom_js'];" scriptClosing

/-- Behind any text the same is written. -/
theorem writeCustomCode_eq (w : Writer) :
    writeScriptBlock (writeStyleBlock w)
      = (⟨w.enterCode.text ++ customCode, .code, bodyIndent⟩ : Writer) := by
  calc writeScriptBlock (writeStyleBlock w)
      = (w.performAll (blockCalls styleLines styleOpening "echo $custom_css;" styleClosing)).performAll
          (blockCalls scriptLines scriptOpening "echo $settings['custom_js'];" scriptClosing) := rfl
    _ = ⟨w.enterCode.text ++ customCode, .code, bodyIndent⟩ := by
        rw [performAll_blockCalls w _ (by decide) (by decide) (by decide),
          performAll_blockCalls _ _ (by decide) (by decide) (by decide), Writer.enterCode,
          customCode, List.append_assoc]

/-- The method runs the plan, and behind it always the same. -/
theorem renderBody_eq (plan : Render.Plan) :
    renderBody plan
      = (plan.write ((Writer.start bodyIndent).line
          (bodyIndent ++ "$settings = $this->get_settings_for_display();")) bodyIndent).enterCode.text
        ++ customCode := by
  rw [renderBody, writeCustomCode_eq]
  rfl

end WidgetCompiler
