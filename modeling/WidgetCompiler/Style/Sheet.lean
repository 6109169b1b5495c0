import WidgetCompiler.Text.Basic

/-!
# Style sheets

A style sheet is a list of nodes: rules, groups of nodes under a condition, and what is kept as it
was written, such as comments, statements and blocks that hold no rules.

`render` writes a sheet with a node a line.  `leaves` is the flat view of a sheet: its rules and
verbatim pieces in order, each with the conditions around it.
-/

namespace WidgetCompiler.Style

open Text

/-- Selectors, and the declarations for what they match. -/
structure Rule where
  selectors : List Text
  /-- The declarations, without the braces around them. -/
  declarations : Text
deriving DecidableEq, Repr

/-- A node of a style sheet. -/
inductive Node
  | rule (rule : Rule)
  /-- Nodes under a condition, such as a media query. -/
  | group (condition : Text) (children : List Node)
  /-- A piece that is kept as it was written. -/
  | raw (text : Text)
deriving Repr, Inhabited

/-- A style sheet. -/
abbrev Sheet := List Node

namespace Rule

/-- A rule on one line. -/
def render (r : Rule) : Text :=
  join ", " r.selectors
    ++ if r.declarations.isEmpty then (" \x7b\x7d" : Text)
      else " \x7b " ++ r.declarations ++ " \x7d"

end Rule

namespace Sheet

/-- The lines of a sheet, each with the given indentation before it. -/
def renderLines (indent : Text) : List Node → List Text
  | [] => []
  | .rule r :: ns => (indent ++ r.render) :: renderLines indent ns
  | .group condition children :: ns =>
    (indent ++ condition ++ " \x7b") :: renderLines (indent ++ "  ") children
      ++ (indent ++ "\x7d") :: renderLines indent ns
  | .raw t :: ns => (indent ++ t) :: renderLines indent ns

/-- A sheet as text, with a line feed behind each node. -/
def render (sheet : Sheet) : Text := joinLines (renderLines [] sheet)

/-- A rule or a verbatim piece, with the conditions around it from the outermost on. -/
structure Leaf where
  conditions : List Text
  content : Rule ⊕ Text
deriving DecidableEq, Repr

/-- The rules and verbatim pieces below the given conditions. -/
def leavesUnder (conditions : List Text) : List Node → List Leaf
  | [] => []
  | .rule r :: ns => ⟨conditions, .inl r⟩ :: leavesUnder conditions ns
  | .group condition children :: ns =>
    leavesUnder (conditions ++ [condition]) children ++ leavesUnder conditions ns
  | .raw t :: ns => ⟨conditions, .inr t⟩ :: leavesUnder conditions ns

/-- The rules and verbatim pieces of a sheet in order. -/
def leaves (sheet : Sheet) : List Leaf := leavesUnder [] sheet

theorem leavesUnder_append (conditions : List Text) (ns ms : List Node) :
    leavesUnder conditions (ns ++ ms) = leavesUnder conditions ns ++ leavesUnder conditions ms := by
  induction ns with
  | nil => simp [leavesUnder]
  | cons n ns ih => cases n <;> simp [leavesUnder, ih]

theorem renderLines_append (indent : Text) (ns ms : List Node) :
    renderLines indent (ns ++ ms) = renderLines indent ns ++ renderLines indent ms := by
  induction ns with
  | nil => simp [renderLines]
  | cons n ns ih => cases n <;> simp [renderLines, ih]

/-- Sheets put behind each other are written behind each other. -/
theorem render_append (s t : Sheet) : render (s ++ t) = render s ++ render t := by
  rw [render, renderLines_append, joinLines_append]; rfl

/-- All rules of a sheet in order. -/
def rules : List Node → List Rule
  | [] => []
  | .rule r :: ns => r :: rules ns
  | .group _ children :: ns => rules children ++ rules ns
  | .raw _ :: ns => rules ns

/-- The sheet with each rule exchanged for what `f` makes of it, or left out.  A group that becomes
empty is left out too. -/
def filterMapRules (f : Rule → Option Rule) : List Node → List Node
  | [] => []
  | .rule r :: ns => match f r with
    | some r => .rule r :: filterMapRules f ns
    | none => filterMapRules f ns
  | .group condition children :: ns =>
    match filterMapRules f children with
    | [] => filterMapRules f ns
    | kept => .group condition kept :: filterMapRules f ns
  | .raw t :: ns => .raw t :: filterMapRules f ns
termination_by ns => sizeOf ns
decreasing_by
  all_goals
    simp only [List.cons.sizeOf_spec, Node.rule.sizeOf_spec, Node.group.sizeOf_spec,
      Node.raw.sizeOf_spec]
    omega

/-- The sheet with each rule exchanged for what `f` makes of it. -/
def mapRules (f : Rule → Rule) : List Node → List Node
  | [] => []
  | .rule r :: ns => .rule (f r) :: mapRules f ns
  | .group condition children :: ns => .group condition (mapRules f children) :: mapRules f ns
  | .raw t :: ns => .raw t :: mapRules f ns

theorem rules_mapRules (f : Rule → Rule) (sheet : Sheet) :
    rules (mapRules f sheet) = (rules sheet).map f := by
  fun_induction mapRules f sheet <;> simp_all [rules]

theorem rules_filterMapRules (f : Rule → Option Rule) (sheet : Sheet) :
    rules (filterMapRules f sheet) = (rules sheet).filterMap f := by
  fun_induction filterMapRules f sheet <;> simp_all [rules]

end Sheet

end WidgetCompiler.Style
