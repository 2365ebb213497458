import Tabletop.Proofs.Evaluator.Answers
import Tabletop.Proofs.Evaluator.Backticks
import Tabletop.Proofs.Program.Meaning
import Tabletop.Proofs.Script.Around

/-!
# Connectives and conditions

A connective looks at its second operand only if the first one does not decide, and so does a condition with
the second operand in one of its branches.  The instructions of the two differ in kind and in number, and with
them the places that every later jump names.  What they compute is the same, wherever in a script they stand
and whatever the operands do.
-/

namespace Tabletop

/-- The condition that makes the value of an expression one or zero. -/
def Expr.oneOrZero (e : Expr) : Expr :=
  .paren (.conditional e (.number 1) (.number 0))

/-- A connective said with conditions: the second operand stands in the branch that is chosen if the first one
does not decide, and what the first one decides in the other. -/
def LogicalOperator.conditional (op : LogicalOperator) (a b : Expr) : Expr :=
  match op with
  | and => .paren (.conditional a b.oneOrZero (.number 0))
  | or => .paren (.conditional a (.number 1) b.oneOrZero)

example : Script.ofSource "(a ? (b ? 1 : 0) : 0)" =
    .ok (.single (LogicalOperator.and.conditional (.name "a") (.name "b"))) := by with_unfolding_all rfl

example : Script.ofSource "(a ? 1 : (b ? 1 : 0))" =
    .ok (.single (LogicalOperator.or.conditional (.name "a") (.name "b"))) := by with_unfolding_all rfl

/-! ## What they compute -/

section

variable {ρ : Type} [Roller ρ]

theorem Expr.eval_oneOrZero (e : Expr) :
    (e.oneOrZero.eval : Run ρ Value) = e.eval >>= fun v => pure (.ofBool v.truthy) := by
  rw [oneOrZero, eval, eval]
  congr 1
  funext v
  cases v.truthy <;> rfl

/-- A connective and its conditions are evaluated alike. -/
theorem LogicalOperator.eval_conditional (op : LogicalOperator) (a b : Expr) :
    ((op.conditional a b).eval : Run ρ Value) = (Expr.logical a op b).eval := by
  cases op with
  | and =>
    rw [conditional, Expr.eval, Expr.eval, Expr.eval]
    congr 1
    funext v
    rw [undecided, Expr.eval_oneOrZero]
    cases v.truthy <;> rfl
  | or =>
    rw [conditional, Expr.eval, Expr.eval, Expr.eval]
    congr 1
    funext v
    rw [undecided, Expr.eval_oneOrZero]
    cases v.truthy <;> rfl

end

/-! ## What evaluators answer -/

variable {ρ γ : Type} [Roller ρ] [Context γ]

namespace Evaluator

/-- Programs that do the same when they are run are answered alike. -/
theorem run_congr {program program' : Program}
    (h : (Run.program program : Run ρ Value) = Run.program program') (ev : Evaluator ρ) (context : γ)
    (bigFail : Bool) (expected : Option ValueType) :
    ev.run program context bigFail expected = ev.run program' context bigFail expected := by
  rw [run, run, h]

end Evaluator

namespace LogicalOperator

/-- A connective and its conditions can stand for each other at any place of any script, inside its templates
as well.  Their programs are the same computation: from every setting and every progress both give the same
value or stop with the same error, and leave the same roller, count of dice, assignments, trace and big-fail
mark.  So every evaluator answers them alike in every context, whatever its limit, its rule and the type that
is demanded, and with them any two source texts that are read as one and as the other. -/
theorem run_fill_conditional (op : LogicalOperator) (a b : Expr) (around : Script.Around) :
    (∀ (setting : Setting) (p : Progress ρ),
      Run.program (around.fill (op.conditional a b)).compile setting p =
        Run.program (around.fill (.logical a op b)).compile setting p) ∧
    (∀ (ev : Evaluator ρ) (context : γ) (bigFail : Bool) (expected : Option ValueType),
      ev.run (around.fill (op.conditional a b)).compile context bigFail expected =
        ev.run (around.fill (.logical a op b)).compile context bigFail expected) ∧
    ∀ source source' : String,
      Script.ofSource source = .ok (around.fill (.logical a op b)) →
      Script.ofSource source' = .ok (around.fill (op.conditional a b)) →
      ∀ (ev : Evaluator ρ) (context : γ),
        (∀ bigFail, ev.evaluate source' context bigFail = ev.evaluate source context bigFail) ∧
        ev.evaluateText source' context = ev.evaluateText source context := by
  have hprogram : (Run.program (around.fill (op.conditional a b)).compile : Run ρ Value) =
      Run.program (around.fill (.logical a op b)).compile := by
    rw [Run.program_compile, Run.program_compile, around.eval_fill (op.eval_conditional a b)]
  have hrun := Evaluator.run_congr (γ := γ) hprogram
  refine ⟨fun setting p => by rw [hprogram], hrun, fun source source' h h' ev context => ?_⟩
  have hread (bigFail : Bool) (expected : Option ValueType) :
      ev.runRead (Program.ofSource source') context bigFail expected =
        ev.runRead (Program.ofSource source) context bigFail expected := by
    rw [Evaluator.runRead_ofSource h, Evaluator.runRead_ofSource h', hrun]
  exact ⟨fun bigFail => hread bigFail none,
    congrArg (Answer.map Evaluator.textOf) (hread false (some .string))⟩

/-- An assignment on the left, seen on the right, inside a template. -/
theorem run_fill_conditional_template :
    let a := Expr.paren (.assign "x" (.binary (.name "x") (.arithmetic .sub) (.number 1)))
    let b := Expr.binary (.name "x") (.comparison .gt) (.number 2)
    let around : Script.Around := .first (.template [] (.first .here []) [.text " left"]) []
    let source := "`\x7b(x = x - 1) && x > 2\x7d left`"
    let source' := "`\x7b((x = x - 1) ? (x > 2 ? 1 : 0) : 0)\x7d left`"
    let ev : Evaluator Stepper := { roller := { value := 1, step := 2 } }
    let vars : Variables := .ofList [("x", Value.number 5)]
    Script.ofSource source = .ok (around.fill (.logical a .and b)) ∧
    Script.ofSource source' = .ok (around.fill (LogicalOperator.and.conditional a b)) ∧
    ev.evaluateText source' vars = ev.evaluateText source vars ∧
    (ev.evaluateText source vars).result.map Prod.fst = .ok "1 left" := by
  intro a b around source source' ev vars
  -- the scripts between the braces, and then the templates around them
  have hread : Script.read 2 "(x = x - 1) && x > 2".toList = .ok (.single (.logical a .and b)) := by
    with_unfolding_all rfl
  have hread' : Script.read 2 "((x = x - 1) ? (x > 2 ? 1 : 0) : 0)".toList =
      .ok (.single (LogicalOperator.and.conditional a b)) := by
    with_unfolding_all rfl
  have hpieces : Piece.ofBody 1 "\x7b(x = x - 1) && x > 2\x7d left".toList =
      [.code 2 "(x = x - 1) && x > 2".toList, .text " left".toList] := by decide +kernel
  have hpieces' : Piece.ofBody 1 "\x7b((x = x - 1) ? (x > 2 ? 1 : 0) : 0)\x7d left".toList =
      [.code 2 "((x = x - 1) ? (x > 2 ? 1 : 0) : 0)".toList, .text " left".toList] := by decide +kernel
  have hsource : Script.ofSource source = .ok (around.fill (.logical a .and b)) := by
    refine Script.ofSource_of_pieces (by decide +kernel) (by decide) hpieces ?_
    simp only [List.mapM_cons, Piece.read, hread]
    rfl
  have hsource' : Script.ofSource source' =
      .ok (around.fill (LogicalOperator.and.conditional a b)) := by
    refine Script.ofSource_of_pieces (by decide +kernel) (by decide) hpieces' ?_
    simp only [List.mapM_cons, Piece.read, hread']
    rfl
  have htext : (ev.evaluateText source vars).result.map Prod.fst = .ok "1 left" := by
    decide +kernel
  obtain ⟨-, -, hsources⟩ := run_fill_conditional (ρ := Stepper) (γ := Variables) .and a b around
  exact ⟨hsource, hsource', (hsources source source' hsource hsource' ev vars).2, htext⟩

end LogicalOperator
end Tabletop
