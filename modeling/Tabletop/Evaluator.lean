import Tabletop.Program.Source
import Tabletop.Run.Machine

/-!
# Evaluators

An evaluator reads, compiles and runs source texts. It owns the roller, which goes on from one evaluation
to the next, and is lent a context. The context changes only if the evaluation succeeds: then every name
that was assigned is written to it once, in the order in which the names were first assigned, with the
value that was assigned last.
-/

namespace Tabletop

/-- Why an evaluation failed. -/
inductive Failure where
  | script (why : SyntaxError)
  | run (why : RunError)
  | wrongType (expected found : ValueType)
  deriving DecidableEq, Repr

namespace Failure

/-- The wording of a failure. -/
def message : Failure → String
  | script why => why.message
  | run why => why.message
  | wrongType expected found =>
    "expected a " ++ expected.text ++ " result, found a " ++ found.text

/-- Whether the source text was no script. -/
def isScript : Failure → Bool
  | script _ => true
  | _ => false

/-- Whether the run stopped. -/
def isRun : Failure → Bool
  | run _ => true
  | _ => false

end Failure

/-- How many dice one evaluation may roll, without a limit if nothing is given, and how many instructions
a program is expected to have, which no answer depends on. -/
structure Config where
  maxRolls : Option Nat := some 1000
  programCapacity : Nat := 255
  deriving DecidableEq, Repr

/-- What a successful evaluation gives. -/
structure Evaluation where
  value : Value
  trace : Trace
  bigFail : Bool
  deriving DecidableEq, Repr

/-- The trace of an evaluation as a text. -/
def Evaluation.detail (e : Evaluation) : String :=
  e.trace.text

/-- A result, and the roller and the context that an evaluation leaves behind. -/
structure Answer (ρ γ α : Type) where
  result : Except Failure α
  roller : ρ
  context : γ

/-- Changes the result of a successful evaluation. -/
def Answer.map {ρ γ α β : Type} (f : α → β) (a : Answer ρ γ α) : Answer ρ γ β :=
  { a with result := a.result.map f }

/-- What evaluations are done with. -/
structure Evaluator (ρ : Type) where
  roller : ρ
  config : Config := {}
  rule : BigFailRule := .maxFace

namespace Evaluator

variable {ρ γ : Type}

/-- What a run in a context goes by. -/
def setting [Context γ] (ev : Evaluator ρ) (context : γ) (bigFail : Bool) : Setting :=
  { lookup := Context.get context
    maxRolls := ev.config.maxRolls
    rule := if bigFail then some ev.rule else none }

/-- Runs a computation in a context, and demands a result of the `expected` type if one is given. -/
def perform [Context γ] (ev : Evaluator ρ) (computation : Run ρ Value) (context : γ) (bigFail : Bool)
    (expected : Option ValueType) : Answer ρ γ Evaluation :=
  match computation (ev.setting context bigFail) { roller := ev.roller } with
  | .error why p => { result := .error (.run why), roller := p.roller, context }
  | .ok value p =>
    let done : Answer ρ γ Evaluation :=
      { result := .ok { value, trace := p.trace, bigFail := p.bigFail }
        roller := p.roller
        context := p.writes.commit context }
    match expected with
    | none => done
    | some type =>
      if value.type = type then done
      else { result := .error (.wrongType type value.type), roller := p.roller, context }

/-- Runs a program. -/
def run [Roller ρ] [Context γ] (ev : Evaluator ρ) (program : Program) (context : γ) (bigFail : Bool)
    (expected : Option ValueType) : Answer ρ γ Evaluation :=
  ev.perform (Run.program program) context bigFail expected

/-- Runs the program that was read from a source text, or reports why there is none. -/
def runRead [Roller ρ] [Context γ] (ev : Evaluator ρ) (program : Except SyntaxError Program)
    (context : γ) (bigFail : Bool) (expected : Option ValueType) : Answer ρ γ Evaluation :=
  match program with
  | .error why => { result := .error (.script why), roller := ev.roller, context }
  | .ok program => ev.run program context bigFail expected

/-- Evaluates a source text to a value. -/
def evaluate [Roller ρ] [Context γ] (ev : Evaluator ρ) (source : String) (context : γ)
    (bigFail : Bool) : Answer ρ γ Evaluation :=
  ev.runRead (Program.ofSource source) context bigFail none

/-- The text of an evaluation and its trace. -/
def textOf (e : Evaluation) : String × Trace :=
  (e.value.text, e.trace)

/-- Evaluates a source text to a text; a number is refused. -/
def evaluateText [Roller ρ] [Context γ] (ev : Evaluator ρ) (source : String) (context : γ) :
    Answer ρ γ (String × Trace) :=
  (ev.runRead (Program.ofSource source) context false (some .string)).map textOf

/-- Fills in a template: evaluates all of a source text as the body of one. -/
def fillTemplate [Roller ρ] [Context γ] (ev : Evaluator ρ) (source : String) (context : γ) :
    Answer ρ γ (String × Trace) :=
  (ev.runRead (Program.ofTemplate source) context false (some .string)).map textOf

end Evaluator
end Tabletop
