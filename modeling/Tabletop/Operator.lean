/-!
# Operators

The signs that stand before one operand or between two. Arithmetic and comparison take numbers or texts
and leave a step in the trace; the connectives `&&` and `||` decide which operand is looked at and leave
none.
-/

namespace Tabletop

/-- A sign before its operand. -/
inductive UnaryOperator where
  | plus
  | minus
  | not
  deriving DecidableEq, Repr

namespace UnaryOperator

/-- How a unary operator is written. -/
def text : UnaryOperator → String
  | plus => "+"
  | minus => "-"
  | not => "!"

/-- Every unary operator once. -/
def all : List UnaryOperator :=
  [plus, minus, not]

end UnaryOperator

/-- Computing a number from two. -/
inductive Arithmetic where
  | add
  | sub
  | mul
  | div
  | rem
  deriving DecidableEq, Repr

/-- How an arithmetic operator is written. -/
def Arithmetic.text : Arithmetic → String
  | add => "+"
  | sub => "-"
  | mul => "*"
  | div => "/"
  | rem => "%"

/-- Asking how two values of one type stand to each other. -/
inductive Comparison where
  | lt
  | gt
  | le
  | ge
  | eq
  | ne
  deriving DecidableEq, Repr

namespace Comparison

/-- How a comparison is written. -/
def text : Comparison → String
  | lt => "<"
  | gt => ">"
  | le => "<="
  | ge => ">="
  | eq => "=="
  | ne => "!="

/-- Whether a comparison holds of two values that stand in the given order. -/
def holds : Comparison → Ordering → Bool
  | lt, o => o.isLT
  | gt, o => o.isGT
  | le, o => o.isLE
  | ge, o => o.isGE
  | eq, o => o.isEq
  | ne, o => o.isNe

end Comparison

/-- A sign between two operands, both of which are always looked at. -/
inductive BinaryOperator where
  | arithmetic (op : Arithmetic)
  | comparison (op : Comparison)
  deriving DecidableEq, Repr

namespace BinaryOperator

/-- How a binary operator is written. -/
def text : BinaryOperator → String
  | arithmetic op => op.text
  | comparison op => op.text

/-- Whether a binary operator compares. -/
def isComparison : BinaryOperator → Bool
  | arithmetic _ => false
  | comparison _ => true

/-- Every binary operator once, arithmetic first. -/
def all : List BinaryOperator :=
  [Arithmetic.add, .sub, .mul, .div, .rem].map arithmetic
    ++ [Comparison.lt, .gt, .le, .ge, .eq, .ne].map comparison

end BinaryOperator

/-- A sign between two operands, the second of which is looked at only if the first does not decide. -/
inductive LogicalOperator where
  | and
  | or
  deriving DecidableEq, Repr

namespace LogicalOperator

/-- How a logical operator is written. -/
def text : LogicalOperator → String
  | and => "&&"
  | or => "||"

/-- Every logical operator once. -/
def all : List LogicalOperator :=
  [and, or]

end LogicalOperator
end Tabletop
