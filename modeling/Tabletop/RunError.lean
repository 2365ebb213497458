import Tabletop.Dice.Basic
import Tabletop.Value.Basic

/-!
# What can stop a run

The causes for which a running program gives up. The last three cannot arise from a program that was
made from a script, with a roller that throws as many dice as it is asked to.
-/

namespace Tabletop

/-- Why a run stopped. -/
inductive RunError where
  | undefinedVariable (name : String)
  | typeMismatch (symbol : String) (found : ValueType)
  | divideByZero
  | tooManyRolls (limit : Nat)
  | overflow
  | stackUnderflow
  | backwardJump (source target : Nat)
  | rolledNothing (term : DiceTerm)
  deriving DecidableEq, Repr

/-- The wording of a cause. -/
def RunError.message : RunError → String
  | .undefinedVariable name => "undefined variable " ++ Text.quote name
  | .typeMismatch symbol found => "cannot apply '" ++ symbol ++ "' to a " ++ found.text
  | .divideByZero => "cannot divide by zero"
  | .tooManyRolls limit => "too many dice rolled (limit is " ++ toString limit ++ ")"
  | .overflow => "integer overflow"
  | .stackUnderflow => "stack underflow"
  | .backwardJump source target =>
    "backward jump from " ++ toString source ++ " to " ++ toString target
  | .rolledNothing term => term.text ++ " rolled no dice"

end Tabletop
