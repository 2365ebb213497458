import Tabletop.Context
import Tabletop.Dice.BigFail
import Tabletop.Dice.Roller
import Tabletop.Dice.Selection
import Tabletop.Trace
import Tabletop.Value.Operation

/-!
# What a run can do

A run reads a setting that does not change (the variables of its context, how many dice may be rolled,
and the rule for big fails, if they are marked) and carries its progress along: the roller, how many dice
have been counted, the assignments that wait, the trace, and whether a big fail was seen. A run that
stops keeps the progress that it has made, so the dice that were thrown stay thrown.
-/

namespace Tabletop

/-- What a run goes by. -/
structure Setting where
  lookup : String → Option Value
  maxRolls : Option Nat
  rule : Option BigFailRule

/-- How far a run has come. -/
structure Progress (ρ : Type) where
  roller : ρ
  rolled : Nat := 0
  writes : Writes := []
  trace : Trace := {}
  bigFail : Bool := false

/-- A computation that may stop with an error. -/
abbrev Run (ρ α : Type) := ReaderT Setting (EStateM RunError (Progress ρ)) α

namespace DiceTerm

/-- The faces that a term makes of the thrown dice: those its modifier drops are marked, and of the
others those that are big fails. -/
def judge (term : DiceTerm) (rule : Option BigFailRule) (thrown : List UInt32) : List Face :=
  let values := thrown.map fun face => (face.toNat : Int)
  let dropped :=
    match term.modifier with
    | some m => m.dropped values
    | none => values.map fun _ => false
  (values.zip dropped).map fun (value, dropped) =>
    { value, dropped,
      bigFail := !dropped && rule.any fun isBigFail => isBigFail term.sides.faces.val value }

end DiceTerm

/-- The sum of the faces that are not dropped, unless it is too large on the way. -/
def Face.total? (faces : List Face) : Option Number :=
  (faces.filter (!·.dropped)).foldlM (fun sum face => Number.ofInt? (sum.toInt + face.value)) 0

namespace Run

variable {ρ : Type}

/-- A result that is known, or an error. -/
def ofExcept {α : Type} : Except RunError α → Run ρ α
  | .ok a => pure a
  | .error e => throw e

/-- Adds a step to the trace. -/
def log (step : Step) : Run ρ Unit :=
  modify fun p => { p with trace := p.trace.push step }

/-- Counts dice that are about to be thrown, and stops the run if they are too many. -/
def countDice (n : Nat) : Run ρ Unit := do
  modify fun p => { p with rolled := p.rolled + n }
  match (← read).maxRolls with
  | some limit => if limit < (← get).rolled then throw (.tooManyRolls limit)
  | none => pure ()

/-- Throws the dice of a term and marks their faces. -/
def throwDice [Roller ρ] (term : DiceTerm) : Run ρ (List Face) := do
  let setting ← read
  let thrown ← modifyGet fun p =>
    let (thrown, roller) := Roller.rollMany term.count.val term.sides.faces p.roller
    (thrown, { p with roller })
  let faces := term.judge setting.rule thrown
  modify fun p => { p with bigFail := p.bigFail || faces.any (·.bigFail) }
  return faces

/-- Rolls a term and gives its total. -/
def rollDice [Roller ρ] (term : DiceTerm) : Run ρ Value := do
  countDice term.count.val
  let faces ← throwDice term
  match Face.total? faces with
  | none => throw .overflow
  | some total =>
    if faces.isEmpty then throw (.rolledNothing term)
    else
      log (.roll term faces total)
      return .number total

/-- Gives the value of a variable: the one assigned last in this run, else that of the context. -/
def load (name : String) : Run ρ Value := do
  match ((← get).writes.get? name).or ((← read).lookup name) with
  | none => throw (.undefinedVariable name)
  | some value =>
    log (.load name value)
    return value

/-- Assigns a value to a variable, for the rest of this run. -/
def store (name : String) (value : Value) : Run ρ Unit := do
  modify fun p => { p with writes := p.writes.set name value }
  log (.store name value)

/-- Applies a unary operator. -/
def unary (op : UnaryOperator) (operand : Value) : Run ρ Value := do
  let result ← ofExcept (op.apply operand)
  log (.unary op operand result)
  return result

/-- Applies a binary operator. -/
def binary (op : BinaryOperator) (left right : Value) : Run ρ Value := do
  let result ← ofExcept (op.apply left right)
  log (.binary left op right result)
  return result

end Run
end Tabletop
