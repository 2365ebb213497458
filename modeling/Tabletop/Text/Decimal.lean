/-!
# Reading whole numbers

A whole number is written with the digits `0` to `9`, after at most one `+`. It is read from left to
right against a limit, and the first thing that goes wrong is the fault: a character that is no digit,
or a value that has just passed the limit. Leading zeros are harmless, however many there are.
-/

namespace Tabletop.Text.Decimal

/-- Why a text is not the number asked for. -/
inductive Fault where
  | empty
  | invalidDigit
  | tooLarge
  | zero
  deriving DecidableEq, Repr

/-- The wording of a fault. -/
def Fault.message : Fault → String
  | .empty => "cannot parse integer from empty string"
  | .invalidDigit => "invalid digit found in string"
  | .tooLarge => "number too large to fit in target type"
  | .zero => "number would be zero for non-zero type"

/-- The value of a decimal digit. -/
def digitValue (c : Char) : Nat :=
  c.toNat - '0'.toNat

/-- Reads digits onto the `value` of those before them, up to `limit`. -/
def readDigits (limit value : Nat) : List Char → Except Fault Nat
  | [] => .ok value
  | c :: cs =>
    if c.isDigit then
      let next := 10 * value + digitValue c
      if limit < next then .error .tooLarge else readDigits limit next cs
    else .error .invalidDigit

/-- Reads a whole number of at most `limit`. A `+` counts as a sign only if something follows it. -/
def read (limit : Nat) : List Char → Except Fault Nat
  | [] => .error .empty
  | '+' :: c :: cs => readDigits limit 0 (c :: cs)
  | cs => readDigits limit 0 cs

end Tabletop.Text.Decimal
