import Tabletop.Run.Effect
import Tabletop.Script.Basic

/-!
# The meaning of a script

What a script computes, said directly on its tree. Operands are evaluated from left to right, the second
operand of `&&` and `||` only if the first does not decide, and of the two branches of a condition only
the one that is chosen. What an assignment assigns is seen by everything that is evaluated after it.
-/

namespace Tabletop

/-- Whether a first operand leaves the decision to the second. -/
def LogicalOperator.undecided : LogicalOperator → Value → Bool
  | and, v => v.truthy
  | or, v => !v.truthy

variable {ρ : Type} [Roller ρ]

mutual

/-- Evaluates an expression. -/
def Expr.eval : Expr → Run ρ Value
  | .number x => return .number x
  | .string s => return .string s
  | .dice term => Run.rollDice term
  | .name name => Run.load name
  | .template segments => do
    let values ← Segment.evalAll segments
    return .string (String.join (values.map Value.text))
  | .paren inner => inner.eval
  | .unary op operand => do
    let v ← operand.eval
    Run.unary op v
  | .binary left op right => do
    let l ← left.eval
    let r ← right.eval
    Run.binary op l r
  | .logical left op right => do
    let l ← left.eval
    if op.undecided l then return .ofBool (← right.eval).truthy else return .ofBool l.truthy
  | .conditional condition consequent alternative => do
    let c ← condition.eval
    if c.truthy then consequent.eval else alternative.eval
  | .assign name value => do
    let v ← value.eval
    Run.store name v
    return v

/-- Evaluates a piece of a template. -/
def Segment.eval : Segment → Run ρ Value
  | .text s => return .string s
  | .code script => script.eval

/-- Evaluates the pieces of a template in order. -/
def Segment.evalAll : List Segment → Run ρ (List Value)
  | [] => return []
  | segment :: segments => do
    let v ← segment.eval
    let values ← Segment.evalAll segments
    return v :: values

/-- Evaluates the expressions of a script in order, for the value of the last. -/
def Script.eval : Script → Run ρ Value
  | .mk first rest => do
    let v ← first.eval
    Script.evalRest v rest

/-- Evaluates the expressions after one with the value `v`. -/
def Script.evalRest (v : Value) : List Expr → Run ρ Value
  | [] => return v
  | e :: rest => do
    let v ← e.eval
    Script.evalRest v rest

end
end Tabletop
