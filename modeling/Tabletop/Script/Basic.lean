import Tabletop.Dice.Basic
import Tabletop.Operator
import Tabletop.Value.Basic

/-!
# Scripts

A script is one expression or several of them in sequence, the value of the last one being the value of
the whole. Expressions and scripts contain each other, because a template contains scripts.
-/

namespace Tabletop

mutual

/-- An expression. -/
inductive Expr where
  | number (x : Number)
  | string (s : String)
  | dice (term : DiceTerm)
  | name (name : String)
  | template (segments : List Segment)
  | paren (inner : Expr)
  | unary (op : UnaryOperator) (operand : Expr)
  | binary (left : Expr) (op : BinaryOperator) (right : Expr)
  | logical (left : Expr) (op : LogicalOperator) (right : Expr)
  | conditional (condition consequent alternative : Expr)
  | assign (name : String) (value : Expr)

/-- A piece of a template: a text as it is, or a script whose value is shown in its place. -/
inductive Segment where
  | text (s : String)
  | code (script : Script)

/-- A sequence of expressions, at least one. -/
inductive Script where
  | mk (first : Expr) (rest : List Expr)

end

namespace Script

/-- The script of a single expression. -/
def single (e : Expr) : Script :=
  .mk e []

/-- The expressions of a script in order. -/
def items : Script → List Expr
  | .mk first rest => first :: rest

/-- A script with one more expression at its end. -/
def snoc : Script → Expr → Script
  | .mk first rest, e => .mk first (rest ++ [e])

theorem items_snoc (s : Script) (e : Expr) : (s.snoc e).items = s.items ++ [e] := by
  cases s
  rfl

end Script
end Tabletop
