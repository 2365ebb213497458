import Tabletop.Main
import Tabletop.Run.Meaning
import Tabletop.Sheet.Roster
import Tabletop.Proofs.Console.Session
import Tabletop.Proofs.Dice.Kept
import Tabletop.Proofs.Dice.Printing
import Tabletop.Proofs.Evaluator.Audit
import Tabletop.Proofs.Evaluator.Backticks
import Tabletop.Proofs.Evaluator.BigFail
import Tabletop.Proofs.Evaluator.Dice
import Tabletop.Proofs.Evaluator.Limit
import Tabletop.Proofs.Evaluator.Numerals
import Tabletop.Proofs.Evaluator.Rendering
import Tabletop.Proofs.Evaluator.Sequence
import Tabletop.Proofs.Evaluator.ShortCircuit
import Tabletop.Proofs.Evaluator.TextMode
import Tabletop.Proofs.Evaluator.Totals
import Tabletop.Proofs.Program.Meaning
import Tabletop.Proofs.Program.Names
import Tabletop.Proofs.Random.Draws
import Tabletop.Proofs.Random.Fairness
import Tabletop.Proofs.Roster.Age
import Tabletop.Proofs.Roster.Census
import Tabletop.Proofs.Roster.Listing
import Tabletop.Proofs.Roster.Merge
import Tabletop.Proofs.Roster.Targets
import Tabletop.Proofs.Roster.Views
import Tabletop.Proofs.Script.Continuation
import Tabletop.Proofs.Script.Expectation
import Tabletop.Proofs.Script.Faults
import Tabletop.Proofs.Script.Joining
import Tabletop.Proofs.Script.Operands
import Tabletop.Proofs.Script.Respacing
import Tabletop.Proofs.Token.Tokenisation
import Tabletop.Proofs.Trace.Text
import Tabletop.Proofs.Value.Division
import Tabletop.Proofs.Script.Substitution
import Tabletop.Proofs.Text.Literal
import Tabletop.Proofs.Script.Literals
