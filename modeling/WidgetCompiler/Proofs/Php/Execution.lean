import WidgetCompiler.Text.Basic

/-!
# Running a routine

A small part of the language, with its own rules: values are nothing, strings and arrays of values
under keys; what is asked of nothing is nothing, what is asked of a string under a key is an error;
and what counts as empty is nothing, the empty string, the string `0` and the empty array.

A routine is a list of instructions.  The instructions between a test and its end are passed over
where the test fails, together with the tests within (`Machine.step`): while the machine passes over,
only the open tests count.
-/

namespace WidgetCompiler.Php

open Text

/-! ## Values -/

/-- What a variable can hold. -/
inductive Datum
  | null
  | string (t : Text)
  | array (entries : List (Text × Datum))

namespace Datum

/-- Whether the value counts as empty. -/
def isEmpty : Datum → Bool
  | null => true
  | string t => t.isEmpty || t == ['0']
  | array entries => entries.isEmpty

/-- What is found under a key.  A string has no keys. -/
def index? (key : Text) : Datum → Option Datum
  | null => some null
  | string _ => none
  | array entries => some ((entries.lookup key).getD null)

/-- The value where a string is asked for. -/
def asString : Datum → Text
  | null => []
  | string t => t
  | array _ => "Array"

end Datum

/-- What the variables hold; of two entries for a name the first counts. -/
abbrev Variables := List (Text × Datum)

/-! ## Expressions -/

/-- A value as it is asked for. -/
inductive Operand
  /-- What a variable holds, under some keys. -/
  | held (name : Text) (keys : List Text)
  | literal (t : Text)
  /-- An array with one string under one key. -/
  | record (key value : Text)
  | null
deriving DecidableEq, Repr

/-- An operand, or one of two, as a third is empty or not. -/
inductive Expression
  | operand (o : Operand)
  /-- The second operand unless the first one is empty, and else the third one. -/
  | unlessEmpty (tested value other : Operand)
deriving DecidableEq, Repr

section

variable (vars : Variables)

/-- The value under some keys, one after the other. -/
def Datum.indexAll? : List Text → Datum → Option Datum
  | [], d => some d
  | key :: keys, d => (d.index? key).bind (indexAll? keys)

/-- The value of an operand.  A variable that holds nothing is null. -/
def Operand.value? : Operand → Option Datum
  | held name keys => ((vars.lookup name).getD .null).indexAll? keys
  | literal t => some (.string t)
  | record key value => some (.array [(key, .string value)])
  | null => some .null

/-- Whether an operand is empty.  One that cannot be had is empty, and that is no error. -/
def Operand.isEmpty (o : Operand) : Bool := ((o.value? vars).map Datum.isEmpty).getD true

/-- The value of an expression. -/
def Expression.value? : Expression → Option Datum
  | operand o => o.value? vars
  | unlessEmpty tested value other =>
    if tested.isEmpty vars then other.value? vars else value.value? vars

end

/-! ## Instructions -/

/-- One thing to do. -/
inductive Instruction
  /-- Prints markup as it stands. -/
  | print (t : Text)
  | assign (name : Text) (e : Expression)
  /-- Prints a value, or what a function makes of it. -/
  | echo (function : Option Text) (e : Expression)
  /-- Begins what is done only if a value is not empty. -/
  | test (o : Operand)
  | endTest
deriving DecidableEq, Repr

/-- The state of a run. -/
structure Machine where
  vars : Variables
  printed : Text := []
  /-- For each test that has not ended, the innermost first, whether it succeeded. -/
  tests : List Bool := []

namespace Machine

/-- Whether instructions are done, and not passed over. -/
def acts (m : Machine) : Bool := m.tests.all id

/-- The machine with more text printed. -/
def print (m : Machine) (t : Text) : Machine := { m with printed := m.printed ++ t }

section

variable (functions : Text → Text → Text)

/-- Does an instruction, or passes over it. -/
def step (m : Machine) : Instruction → Option Machine
  | .print t => some (if m.acts then m.print t else m)
  | .assign name e =>
    if m.acts then (e.value? m.vars).map fun d => { m with vars := (name, d) :: m.vars } else some m
  | .echo function e =>
    if m.acts then (e.value? m.vars).map fun d => m.print ((function.elim id functions) d.asString)
    else some m
  | .test o =>
    if m.acts then (o.value? m.vars).map fun d => { m with tests := (!d.isEmpty) :: m.tests }
    else some { m with tests := false :: m.tests }
  | .endTest => match m.tests with
    | [] => none
    | _ :: tests => some { m with tests := tests }

/-- Does instructions one after the other. -/
def run (m : Machine) : List Instruction → Option Machine
  | [] => some m
  | i :: is => (m.step functions i).bind fun m => m.run is

variable {functions} {m : Machine} {is js : List Instruction}

theorem run_append (m : Machine) (is js : List Instruction) :
    m.run functions (is ++ js) = (m.run functions is).bind fun m => m.run functions js := by
  induction is generalizing m with
  | nil => rfl
  | cons i is ih => simp [run, ih, Option.bind_assoc]

end

end Machine

end WidgetCompiler.Php
