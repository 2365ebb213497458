import Tabletop.Dice.Reading
import Tabletop.Token.Basic

/-!
# Faults in a script

A fault names its cause, the bytes of the source text that are at fault, and those bytes as a text.
-/

namespace Tabletop

/-- Why a text is not a script. -/
inductive SyntaxError.Cause where
  | unexpectedToken (found : Option TokenKind) (expected : List TokenKind)
  | unexpectedText (expected : List TokenKind)
  | unclosedString
  | unclosedTemplate
  | invalidDice (why : DiceFault)
  | integerOutOfRange
  | invalidTarget
  | unclosedInterpolation
  | emptyInterpolation
  deriving DecidableEq, Repr

/-- A fault: its cause, where it starts and stops, and the text between. -/
structure SyntaxError where
  cause : SyntaxError.Cause
  start : Nat
  stop : Nat
  slice : String
  deriving DecidableEq, Repr

namespace SyntaxError

/-- A list of kinds as a choice: `a`, `a or b`, `a, b, or c`. -/
def choice : List TokenKind → String
  | [] => ""
  | [a] => a.text
  | [a, b] => a.text ++ " or " ++ b.text
  | kinds =>
    String.join (kinds.dropLast.map fun kind => kind.text ++ ", ") ++ "or "
      ++ (kinds.getLast?.map TokenKind.text).getD ""

/-- The wording of a cause. -/
def Cause.message : Cause → String
  | unexpectedToken (some found) expected =>
    "unexpected token: found " ++ found.text ++ ", expected " ++ choice expected
  | unexpectedToken none expected => "unexpected end of input, expected " ++ choice expected
  | unexpectedText expected => "expected " ++ choice expected
  | unclosedString => "string is missing its closing '\"'"
  | unclosedTemplate => "template is missing its closing '\x60'"
  | invalidDice why => "invalid dice literal: " ++ why.message
  | integerOutOfRange => "integer literal is out of range"
  | invalidTarget => "only a variable can be assigned to"
  | unclosedInterpolation => "'\x7b' in template is never closed"
  | emptyInterpolation => "'\x7b\x7d' in template has no expression"

/-- The wording of a fault. -/
def message (e : SyntaxError) : String :=
  "error at position " ++ toString e.start ++ " (" ++ Text.quote e.slice ++ "): " ++ e.cause.message

/-- The fault that a token is. -/
def atToken (t : Token) (cause : Cause) : SyntaxError :=
  { cause, start := t.start, stop := t.stop, slice := String.ofList t.text }

/-- The fault that a text ends too early, at the byte `stop`. -/
def atEnd (stop : Nat) (expected : List TokenKind) : SyntaxError :=
  { cause := .unexpectedToken none expected, start := stop, stop, slice := "" }

/-- The fault that a token stands where one of the `expected` kinds has to stand. Text that is no token
is reported as such, a missing end mark before anything else. -/
def unexpected (t : Token) (expected : List TokenKind) : SyntaxError :=
  atToken t <|
    match t.kind with
    | .unknown => .unexpectedText expected
    | .unclosedString => .unclosedString
    | .unclosedTemplate => .unclosedTemplate
    | kind => .unexpectedToken (some kind) expected

end SyntaxError
end Tabletop
