import Tabletop.Dice.Basic
import Tabletop.Operator
import Tabletop.Value.Basic

/-!
# Traces

Every roll, every operation on values, and every use of a variable leaves a step behind, so that a result
can be checked by those at the table. A trace is shown as its steps with commas between them.
-/

namespace Tabletop

/-- The face of a die that was thrown, and what was made of it. -/
structure Face where
  value : Int
  dropped : Bool := false
  bigFail : Bool := false
  deriving DecidableEq, Repr

/-- How a face is shown: a big fail with an exclamation mark, a dropped one in parentheses. -/
def Face.text (f : Face) : String :=
  let shown := toString f.value ++ if f.bigFail then "!" else ""
  if f.dropped then "(" ++ shown ++ ")" else shown

/-- One step of a run. -/
inductive Step where
  | roll (term : DiceTerm) (faces : List Face) (total : Number)
  | unary (op : UnaryOperator) (operand result : Value)
  | binary (left : Value) (op : BinaryOperator) (right result : Value)
  | load (name : String) (value : Value)
  | store (name : String) (value : Value)
  deriving DecidableEq, Repr

/-- How a step is shown. -/
def Step.text : Step → String
  | roll term faces total =>
    term.text ++ "=[" ++ ",".intercalate (faces.map Face.text) ++ "]=" ++ total.text
  | unary op operand result => op.text ++ operand.render ++ "=" ++ result.render
  | binary left op right result =>
    left.render ++ op.text ++ right.render ++ "=" ++ result.render
  | load name value => name ++ "=" ++ value.render
  | store name value => name ++ ":=" ++ value.render

/-- The steps of a run in the order in which they were taken. -/
structure Trace where
  log : Array Step := #[]
  deriving DecidableEq, Repr

namespace Trace

/-- The steps as a list. -/
def steps (t : Trace) : List Step :=
  t.log.toList

/-- A trace with one more step. -/
def push (t : Trace) (step : Step) : Trace :=
  { log := t.log.push step }

@[simp]
theorem steps_push (t : Trace) (step : Step) : (t.push step).steps = t.steps ++ [step] := by
  simp [steps, push]

/-- The faces that were thrown, those of the first roll first. -/
def faces (t : Trace) : List Face :=
  t.steps.flatMap fun
    | .roll _ faces _ => faces
    | _ => []

/-- How a trace is shown. -/
def text (t : Trace) : String :=
  ", ".intercalate (t.steps.map Step.text)

end Trace
end Tabletop
