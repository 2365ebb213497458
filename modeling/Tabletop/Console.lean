import Tabletop.Evaluator

/-!
# The console

A line is a script to evaluate; after `bf ` big fails are marked, and after `text ` the rest of the line
is the body of a template. Blank lines do nothing. Results are printed, failures reported, and the
variables last until the end of the session.
-/

namespace Tabletop

open Text

/-- What the console prints, and what it reports as a failure. -/
structure Console.Reply where
  printed : String := ""
  reported : String := ""
  deriving DecidableEq, Repr

/-- A session of the console: its roller and its variables. -/
structure Console (ρ : Type) where
  roller : ρ
  vars : Variables := ∅

namespace Console

/-- What is printed when the console is ready for a line. -/
def prompt : String := "> "

/-- What a line asks for. -/
inductive Command where
  | nothing
  | template (body : String)
  | script (source : String) (bigFail : Bool)
  deriving DecidableEq, Repr

/-- The characters behind a word at the front of a line. -/
def behind? (word : String) (line : List Char) : Option (List Char) :=
  if word.toList.isPrefixOf line then some (line.drop word.toList.length) else none

/-- Reads a line, whose blank ends do not matter. -/
def Command.ofLine (line : String) : Command :=
  let line := trim line.toList
  match behind? "text " line with
  | some body => .template (String.ofList body)
  | none =>
    if line.isEmpty then .nothing
    else
      match behind? "bf " line with
      | some source => .script (String.ofList source) true
      | none => .script (String.ofList line) false

/-- What is printed for a result and its trace. -/
def resultText (shown : String) (trace : Trace) : String :=
  shown ++ "\n  [" ++ trace.text ++ "]\n"

/-- What is printed for an evaluation. -/
def evaluationText (e : Evaluation) : String :=
  resultText (e.value.text ++ if e.bigFail then " (big fail!)" else "") e.trace

/-- The reply to a result that is shown by `print`. -/
def Reply.ofResult {α : Type} (print : α → String) : Except Failure α → Reply
  | .ok a => { printed := print a }
  | .error why => { reported := "Error: " ++ why.message ++ "\n" }

variable {ρ : Type} [Roller ρ]

/-- The session after an evaluation, and the reply to its result. -/
def conclude {α : Type} (print : α → String) (a : Answer ρ Variables α) : Console ρ × Reply :=
  ({ roller := a.roller, vars := a.context }, .ofResult print a.result)

/-- Carries out a line. -/
def line (c : Console ρ) (text : String) : Console ρ × Reply :=
  let ev : Evaluator ρ := { roller := c.roller }
  match Command.ofLine text with
  | .nothing => (c, {})
  | .template body =>
    conclude (fun (shown, trace) => resultText shown trace) (ev.fillTemplate body c.vars)
  | .script source bigFail => conclude evaluationText (ev.evaluate source c.vars bigFail)

/-- Carries out the lines of a session and gives all that is printed, with a prompt before each line and
one after the last, and all that is reported. -/
def run (c : Console ρ) : List String → Reply
  | [] => { printed := prompt }
  | text :: rest =>
    let (c, reply) := c.line text
    let later := c.run rest
    { printed := prompt ++ reply.printed ++ later.printed
      reported := reply.reported ++ later.reported }

end Console
end Tabletop
