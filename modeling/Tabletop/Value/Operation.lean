import Tabletop.Operator
import Tabletop.RunError

/-!
# Operators on values

Arithmetic takes numbers and is exact: a result that is no 64-bit number is an overflow. Quotients are
cut toward zero, a remainder has the sign of what was divided, and there is no remainder without its
quotient: the one pair of numbers whose quotient is an overflow has an overflow as its remainder too.
Comparisons take two numbers or two texts; texts are compared character by character, by code point. Of
two operands that are both at fault the left one is named.
-/

namespace Tabletop

/-- The number equal to an exact result. -/
def exactly (i : Int) : Except RunError Value :=
  match Number.ofInt? i with
  | some x => .ok (.number x)
  | none => .error .overflow

/-- The number that an operator with the given symbol finds as its operand. -/
def Value.expectNumber (symbol : String) : Value → Except RunError Number
  | .number x => .ok x
  | .string _ => .error (.typeMismatch symbol .string)

/-- Applies a sign to its operand. -/
def UnaryOperator.apply (op : UnaryOperator) (v : Value) : Except RunError Value :=
  match op with
  | plus => (v.expectNumber op.text).map .number
  | minus => do
    let x ← v.expectNumber op.text
    exactly (-x.toInt)
  | not => .ok (.ofBool !v.truthy)

/-- Computes with two numbers. -/
def Arithmetic.compute (op : Arithmetic) (x y : Number) : Except RunError Value :=
  match op with
  | add => exactly (x.toInt + y.toInt)
  | sub => exactly (x.toInt - y.toInt)
  | mul => exactly (x.toInt * y.toInt)
  | div => if y = 0 then .error .divideByZero else exactly (x.toInt.tdiv y.toInt)
  | rem =>
    if y = 0 then .error .divideByZero
    else do
      let _ ← exactly (x.toInt.tdiv y.toInt)
      exactly (x.toInt.tmod y.toInt)

/-- How two values of one type stand to each other. -/
def Value.order? : Value → Value → Option Ordering
  | .number x, .number y => some (compare x.toInt y.toInt)
  | .string s, .string t => some (compare s t)
  | _, _ => none

/-- Applies a sign to its two operands. -/
def BinaryOperator.apply (op : BinaryOperator) (l r : Value) : Except RunError Value :=
  match op with
  | arithmetic a => do
    let x ← l.expectNumber op.text
    let y ← r.expectNumber op.text
    a.compute x y
  | comparison c =>
    match l.order? r with
    | some o => .ok (.ofBool (c.holds o))
    | none => .error (.typeMismatch op.text .string)

end Tabletop
