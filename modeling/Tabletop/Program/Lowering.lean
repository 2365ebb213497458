import Tabletop.Program.Basic
import Tabletop.Script.Basic

/-!
# Programs of scripts

The instructions of an expression leave one value on the stack and nothing else. They depend on the
place `here` of the first of them, because jumps name places; all jumps go forward.

An operand that may decide alone is followed by a jump to an instruction that puts the decided value on
the stack; otherwise the second operand is made one or zero and that instruction is jumped over.
-/

namespace Tabletop

/-- The jump that is taken if the first operand decides. -/
def LogicalOperator.shortcut : LogicalOperator → Nat → Instruction
  | and, target => .jumpUnless target
  | or, target => .jumpIf target

/-- What the first operand decides. -/
def LogicalOperator.decided : LogicalOperator → Value
  | and => .ofBool false
  | or => .ofBool true

mutual

/-- The instructions of an expression. -/
def Expr.lower (here : Nat) : Expr → List Instruction
  | .number x => [.push (.number x)]
  | .string s => [.push (.string s)]
  | .dice term => [.roll term]
  | .name name => [.load name]
  | .template segments => Segment.lowerAll here segments ++ [.concat segments.length]
  | .paren inner => inner.lower here
  | .unary op operand => operand.lower here ++ [.unary op]
  | .binary left op right =>
    let first := left.lower here
    let second := right.lower (here + first.length)
    first ++ second ++ [.binary op]
  | .logical left op right =>
    let first := left.lower here
    let second := right.lower (here + first.length + 1)
    let decided := here + first.length + 1 + second.length + 2
    first ++ op.shortcut decided :: second ++ [.truthy, .jump (decided + 1), .push op.decided]
  | .conditional condition consequent alternative =>
    let test := condition.lower here
    let yes := consequent.lower (here + test.length + 1)
    let otherwise := here + test.length + 1 + yes.length + 1
    let no := alternative.lower otherwise
    test ++ .jumpUnless otherwise :: yes ++ .jump (otherwise + no.length) :: no
  | .assign name value => value.lower here ++ [.store name]

/-- The instructions of a piece of a template. -/
def Segment.lower (here : Nat) : Segment → List Instruction
  | .text s => [.push (.string s)]
  | .code script => script.lower here

/-- The instructions of the pieces of a template, each of which leaves a value on the stack. -/
def Segment.lowerAll (here : Nat) : List Segment → List Instruction
  | [] => []
  | segment :: segments =>
    let first := segment.lower here
    first ++ Segment.lowerAll (here + first.length) segments

/-- The instructions of a script, which takes every value but the last off the stack. -/
def Script.lower (here : Nat) : Script → List Instruction
  | .mk e rest =>
    let first := e.lower here
    first ++ Script.lowerRest (here + first.length) rest

/-- The instructions of the expressions after the first. -/
def Script.lowerRest (here : Nat) : List Expr → List Instruction
  | [] => []
  | e :: rest =>
    let next := e.lower (here + 1)
    .pop :: next ++ Script.lowerRest (here + 1 + next.length) rest

end

/-- The program of a script. -/
def Script.compile (script : Script) : Program :=
  { code := script.lower 0 }

end Tabletop
