import Tabletop.Run.Meaning
import Tabletop.Script.Pending

/-!
# Expressions where they stand

`Script.Around` is a script with a gap in which an expression stands, at any depth: among the operands of
another expression, in sequence with others, or in a script inside a template.  What is evaluated around the
gap sees of the expression in it only what the expression evaluates to, so expressions that are evaluated
alike can stand for each other anywhere (`Script.Around.eval_fill`).
-/

namespace Tabletop

mutual

/-- What stands around an expression inside another one. -/
inductive Expr.Around where
  | here
  | template (before : List Segment) (script : Script.Around) (after : List Segment)
  | paren (inner : Expr.Around)
  | unary (op : UnaryOperator) (operand : Expr.Around)
  | left (left : Expr.Around) (op : Connective) (right : Expr)
  | right (left : Expr) (op : Connective) (right : Expr.Around)
  | condition (condition : Expr.Around) (consequent alternative : Expr)
  | consequent (condition : Expr) (consequent : Expr.Around) (alternative : Expr)
  | alternative (condition consequent : Expr) (alternative : Expr.Around)
  | assign (name : String) (value : Expr.Around)

/-- What stands around an expression inside a script. -/
inductive Script.Around where
  | first (around : Expr.Around) (rest : List Expr)
  | later (first : Expr) (before : List Expr) (around : Expr.Around) (after : List Expr)

end

mutual

/-- The expression with `e` in the gap. -/
def Expr.Around.fill (e : Expr) : Expr.Around → Expr
  | .here => e
  | .template before script after => .template (before ++ .code (script.fill e) :: after)
  | .paren inner => .paren (inner.fill e)
  | .unary op operand => .unary op (operand.fill e)
  | .left left op right => op.join (left.fill e) right
  | .right left op right => op.join left (right.fill e)
  | .condition condition consequent alternative =>
    .conditional (condition.fill e) consequent alternative
  | .consequent condition consequent alternative =>
    .conditional condition (consequent.fill e) alternative
  | .alternative condition consequent alternative =>
    .conditional condition consequent (alternative.fill e)
  | .assign name value => .assign name (value.fill e)

/-- The script with `e` in the gap. -/
def Script.Around.fill (e : Expr) : Script.Around → Script
  | .first around rest => .mk (around.fill e) rest
  | .later first before around after => .mk first (before ++ around.fill e :: after)

end

namespace Script.Around

/-- A script with one more expression behind what stands around. -/
def snoc : Script.Around → Expr → Script.Around
  | .first around rest, e => .first around (rest ++ [e])
  | .later head before around after, e => .later head before around (after ++ [e])

/-- The last expression of a script that goes on with it. -/
def last : Script → Expr.Around → Script.Around
  | .mk head before, around => .later head before around []

theorem fill_snoc (around : Script.Around) (e x : Expr) :
    (around.snoc e).fill x = (around.fill x).snoc e := by
  cases around with
  | first around rest => rfl
  | later head before around after => simp [snoc, fill, Script.snoc]

theorem fill_last (script : Script) (around : Expr.Around) (x : Expr) :
    (last script around).fill x = script.snoc (around.fill x) := by
  cases script
  rfl

end Script.Around

/-! ## Gaps inside gaps -/

mutual

/-- What stands around the gap of `inner` where `inner` stands in the gap of `outer`. -/
def Expr.Around.comp (outer inner : Expr.Around) : Expr.Around :=
  match outer with
  | .here => inner
  | .template before script after => .template before (script.comp inner) after
  | .paren around => .paren (around.comp inner)
  | .unary op operand => .unary op (operand.comp inner)
  | .left left op right => .left (left.comp inner) op right
  | .right left op right => .right left op (right.comp inner)
  | .condition condition consequent alternative =>
    .condition (condition.comp inner) consequent alternative
  | .consequent condition consequent alternative =>
    .consequent condition (consequent.comp inner) alternative
  | .alternative condition consequent alternative =>
    .alternative condition consequent (alternative.comp inner)
  | .assign name value => .assign name (value.comp inner)

/-- The same where the outer gap is in a script. -/
def Script.Around.comp (outer : Script.Around) (inner : Expr.Around) : Script.Around :=
  match outer with
  | .first around rest => .first (around.comp inner) rest
  | .later first before around after => .later first before (around.comp inner) after

end

mutual

theorem Expr.Around.fill_comp (outer inner : Expr.Around) (e : Expr) :
    (outer.comp inner).fill e = outer.fill (inner.fill e) := by
  match outer with
  | .here => rfl
  | .template before script after =>
    rw [Expr.Around.comp, Expr.Around.fill, Expr.Around.fill, script.fill_comp inner e]
  | .paren around => rw [Expr.Around.comp, Expr.Around.fill, Expr.Around.fill, around.fill_comp inner e]
  | .unary op operand => rw [Expr.Around.comp, Expr.Around.fill, Expr.Around.fill, operand.fill_comp inner e]
  | .left left op right => rw [Expr.Around.comp, Expr.Around.fill, Expr.Around.fill, left.fill_comp inner e]
  | .right left op right => rw [Expr.Around.comp, Expr.Around.fill, Expr.Around.fill, right.fill_comp inner e]
  | .condition condition consequent alternative =>
    rw [Expr.Around.comp, Expr.Around.fill, Expr.Around.fill, condition.fill_comp inner e]
  | .consequent condition consequent alternative =>
    rw [Expr.Around.comp, Expr.Around.fill, Expr.Around.fill, consequent.fill_comp inner e]
  | .alternative condition consequent alternative =>
    rw [Expr.Around.comp, Expr.Around.fill, Expr.Around.fill, alternative.fill_comp inner e]
  | .assign name value => rw [Expr.Around.comp, Expr.Around.fill, Expr.Around.fill, value.fill_comp inner e]

theorem Script.Around.fill_comp (outer : Script.Around) (inner : Expr.Around) (e : Expr) :
    (outer.comp inner).fill e = outer.fill (inner.fill e) := by
  match outer with
  | .first around rest =>
    rw [Script.Around.comp, Script.Around.fill, Script.Around.fill, around.fill_comp inner e]
  | .later first before around after =>
    rw [Script.Around.comp, Script.Around.fill, Script.Around.fill, around.fill_comp inner e]

end

/-! ## Evaluation -/

section

variable {ρ : Type} [Roller ρ]

theorem Connective.eval_join_congr {l l' r r' : Expr} (op : Connective)
    (hl : (l.eval : Run ρ Value) = l'.eval) (hr : (r.eval : Run ρ Value) = r'.eval) :
    ((op.join l r).eval : Run ρ Value) = (op.join l' r').eval := by
  cases op <;> rw [join, join, Expr.eval, Expr.eval, hl, hr]

theorem Segment.evalAll_congr {segment segment' : Segment} (before after : List Segment)
    (h : (segment.eval : Run ρ Value) = segment'.eval) :
    (Segment.evalAll (before ++ segment :: after) : Run ρ (List Value)) =
      Segment.evalAll (before ++ segment' :: after) := by
  induction before with
  | nil => rw [List.nil_append, List.nil_append, evalAll, evalAll, h]
  | cons other before ih => rw [List.cons_append, List.cons_append, evalAll, evalAll, ih]

theorem Script.evalRest_congr {e e' : Expr} (v : Value) (before after : List Expr)
    (h : (e.eval : Run ρ Value) = e'.eval) :
    (Script.evalRest v (before ++ e :: after) : Run ρ Value) =
      Script.evalRest v (before ++ e' :: after) := by
  induction before generalizing v with
  | nil => rw [List.nil_append, List.nil_append, evalRest, evalRest, h]
  | cons other before ih =>
    rw [List.cons_append, List.cons_append, evalRest, evalRest]
    simp only [ih]

mutual

/-- Expressions that are evaluated alike can stand for each other inside another one. -/
theorem Expr.Around.eval_fill {a b : Expr} (h : (a.eval : Run ρ Value) = b.eval)
    (around : Expr.Around) : ((around.fill a).eval : Run ρ Value) = (around.fill b).eval := by
  match around with
  | .here => exact h
  | .template before script after =>
    rw [Expr.Around.fill, Expr.Around.fill, Expr.eval, Expr.eval, Segment.evalAll_congr before after]
    rw [Segment.eval, Segment.eval, script.eval_fill h]
  | .paren inner => rw [Expr.Around.fill, Expr.Around.fill, Expr.eval, Expr.eval, inner.eval_fill h]
  | .unary op operand => rw [Expr.Around.fill, Expr.Around.fill, Expr.eval, Expr.eval, operand.eval_fill h]
  | .left left op right => exact op.eval_join_congr (left.eval_fill h) rfl
  | .right left op right => exact op.eval_join_congr rfl (right.eval_fill h)
  | .condition condition consequent alternative =>
    rw [Expr.Around.fill, Expr.Around.fill, Expr.eval, Expr.eval, condition.eval_fill h]
  | .consequent condition consequent alternative =>
    rw [Expr.Around.fill, Expr.Around.fill, Expr.eval, Expr.eval, consequent.eval_fill h]
  | .alternative condition consequent alternative =>
    rw [Expr.Around.fill, Expr.Around.fill, Expr.eval, Expr.eval, alternative.eval_fill h]
  | .assign name value => rw [Expr.Around.fill, Expr.Around.fill, Expr.eval, Expr.eval, value.eval_fill h]

/-- Expressions that are evaluated alike can stand for each other in a script. -/
theorem Script.Around.eval_fill {a b : Expr} (h : (a.eval : Run ρ Value) = b.eval)
    (around : Script.Around) : ((around.fill a).eval : Run ρ Value) = (around.fill b).eval := by
  match around with
  | .first around rest =>
    rw [Script.Around.fill, Script.Around.fill, Script.eval, Script.eval, around.eval_fill h]
  | .later first before around after =>
    rw [Script.Around.fill, Script.Around.fill, Script.eval, Script.eval]
    simp only [Script.evalRest_congr _ before after (around.eval_fill h)]

end

end
end Tabletop
