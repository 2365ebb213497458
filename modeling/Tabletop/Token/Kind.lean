import Tabletop.Operator

/-!
# Kinds of tokens

What a piece of source text can be, how each kind is called in a message, and which kinds are operators.
-/

namespace Tabletop

/-- What a token is. The last three kinds stand for text that is no token. -/
inductive TokenKind where
  | integer
  | dice
  | identifier
  | string
  | template
  | leftParen
  | rightParen
  | semicolon
  | question
  | colon
  | plus
  | minus
  | star
  | slash
  | percent
  | bang
  | equal
  | equalEqual
  | greaterEqual
  | lessEqual
  | bangEqual
  | lessThan
  | greaterThan
  | ampAmp
  | pipePipe
  | unclosedString
  | unclosedTemplate
  | unknown
  deriving DecidableEq, Repr

namespace TokenKind

/-- The spelling of a kind that has only one. -/
def spelling? : TokenKind → Option String
  | leftParen => some "("
  | rightParen => some ")"
  | semicolon => some ";"
  | question => some "?"
  | colon => some ":"
  | plus => some "+"
  | minus => some "-"
  | star => some "*"
  | slash => some "/"
  | percent => some "%"
  | bang => some "!"
  | equal => some "="
  | equalEqual => some "=="
  | greaterEqual => some ">="
  | lessEqual => some "<="
  | bangEqual => some "!="
  | lessThan => some "<"
  | greaterThan => some ">"
  | ampAmp => some "&&"
  | pipePipe => some "||"
  | _ => none

/-- What a message calls a kind. -/
def text (kind : TokenKind) : String :=
  match kind with
  | integer => "<integer>"
  | dice => "<dice>"
  | identifier => "<identifier>"
  | string => "<string>"
  | template => "<template>"
  | _ =>
    match kind.spelling? with
    | some spelling => "'" ++ spelling ++ "'"
    | none => "<error>"

/-- The operator that a kind is before an operand. -/
def unary? : TokenKind → Option UnaryOperator
  | plus => some .plus
  | minus => some .minus
  | bang => some .not
  | _ => none

/-- The operator that a kind is between two operands, if it always looks at both. -/
def binary? : TokenKind → Option BinaryOperator
  | plus => some (.arithmetic .add)
  | minus => some (.arithmetic .sub)
  | star => some (.arithmetic .mul)
  | slash => some (.arithmetic .div)
  | percent => some (.arithmetic .rem)
  | lessThan => some (.comparison .lt)
  | greaterThan => some (.comparison .gt)
  | lessEqual => some (.comparison .le)
  | greaterEqual => some (.comparison .ge)
  | equalEqual => some (.comparison .eq)
  | bangEqual => some (.comparison .ne)
  | _ => none

/-- The operator that a kind is between two operands, if the first may decide alone. -/
def logical? : TokenKind → Option LogicalOperator
  | ampAmp => some .and
  | pipePipe => some .or
  | _ => none

end TokenKind
end Tabletop
