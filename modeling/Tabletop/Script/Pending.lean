import Tabletop.Script.Basic
import Tabletop.Script.SyntaxError
import Tabletop.Text.Literal

/-!
# Reading a script token by token

Reading goes from left to right and never looks ahead. What has been read is kept as the constructs that
still wait for something: a `Link` waits for its last operand, an `Opening` for a certain token. A token
between operands first completes the links that bind at least as tightly as it does, which makes equal
operators group to the left; a token that ends an opening completes all links inside it.

From loosest to tightest the grammar is

    script      = expression (';' expression)* ';'?
    expression  = name '=' expression | disjunction ('?' expression ':' expression)?
    disjunction = conjunction ('||' conjunction)*
    conjunction = comparison ('&&' comparison)*
    comparison  = sum (('<' | '>' | '<=' | '>=' | '==' | '!=') sum)*
    sum         = product (('+' | '-') product)*
    product     = signed (('*' | '/' | '%') signed)*
    signed      = ('+' | '-' | '!') signed | operand
    operand     = '(' expression ')' | integer | dice | name | string | template
-/

namespace Tabletop

open Text

/-- An operator between two operands. -/
inductive Connective where
  | binary (op : BinaryOperator)
  | logical (op : LogicalOperator)
  deriving DecidableEq, Repr

namespace Connective

/-- The connective that a kind of token is. -/
def ofKind? (kind : TokenKind) : Option Connective :=
  (kind.binary?.map binary).or (kind.logical?.map logical)

/-- How tightly a connective binds: the greater, the tighter. -/
def tier : Connective → Nat
  | logical .or => 1
  | logical .and => 2
  | binary (.comparison _) => 3
  | binary (.arithmetic .add) => 4
  | binary (.arithmetic .sub) => 4
  | binary (.arithmetic _) => 5

/-- The expression of a connective and its two operands. -/
def join (l : Expr) (op : Connective) (r : Expr) : Expr :=
  match op with
  | binary op => .binary l op r
  | logical op => .logical l op r

end Connective

/-- A construct that is complete as soon as its last operand is. -/
inductive Link where
  | unary (op : UnaryOperator)
  | operand (left : Expr) (op : Connective)
  | alternative (condition consequent : Expr)
  | assignment (name : String)

namespace Link

/-- Completes a construct. -/
def fill : Link → Expr → Expr
  | unary op, e => .unary op e
  | operand left op, e => op.join left e
  | alternative condition consequent, e => .conditional condition consequent e
  | assignment name, e => .assign name e

/-- Whether a construct is complete before a token that binds as tightly as `tier`. -/
def binds (tier : Nat) : Link → Bool
  | unary _ => true
  | operand _ op => tier ≤ op.tier
  | alternative _ _ => false
  | assignment _ => false

/-- Completes the links in front that a token of the given tier finds complete. -/
def settle (tier : Nat) : List Link → Expr → List Link × Expr
  | [], e => ([], e)
  | link :: links, e =>
    if link.binds tier then settle tier links (link.fill e) else (link :: links, e)

/-- Completes every link. -/
def close (links : List Link) (e : Expr) : Expr :=
  links.foldl (fun e link => link.fill e) e

end Link

/-- A construct that waits for a certain token. -/
inductive Opening where
  | consequent (condition : Expr)
  | paren

/-- The kind of token that an opening waits for. -/
def Opening.closer : Opening → TokenKind
  | consequent _ => .colon
  | paren => .rightParen

/-- A token, and for a template what its body contains. -/
structure Word where
  token : Token
  segments : Except SyntaxError (List Segment)

/-- What has been read of a script: the expressions that are complete, the openings that wait (the
innermost first, each with the links around it), the links of the present expression, and the operand
that has just been read. Without such an operand the next token has to begin one. -/
structure Pending where
  before : Option Script
  openings : List (Opening × List Link)
  links : List Link
  operand : Option Expr

namespace Pending

/-- Nothing has been read. -/
def start : Pending :=
  { before := none, openings := [], links := [], operand := none }

/-- The kinds of token that begin an operand, as a message lists them. -/
def operandKinds : List TokenKind :=
  [.leftParen, .integer, .dice, .identifier, .string, .template]

/-- The complete expressions with one more. -/
def append (before : Option Script) (e : Expr) : Script :=
  match before with
  | none => .single e
  | some script => script.snoc e

/-- Takes an integer. A minus sign that stands right before it allows one number more, which is then a
literal of its own. -/
def readInteger (p : Pending) (t : Token) : Except SyntaxError Pending :=
  match Decimal.read 0x8000000000000000 t.text, p.links with
  | .error _, _ => .error (.atToken t .integerOutOfRange)
  | .ok n, links =>
    if n < 0x8000000000000000 then .ok { p with operand := some (.number (Int64.ofNat n)) }
    else
      match links with
      | .unary .minus :: links =>
        .ok { p with links, operand := some (.number Int64.minValue) }
      | _ => .error (.atToken t .integerOutOfRange)

/-- Takes a token where an operand has to begin. -/
def readOperand (p : Pending) (w : Word) : Except SyntaxError Pending :=
  let t := w.token
  match t.kind with
  | .integer => p.readInteger t
  | .dice =>
    match DiceTerm.read t.text with
    | .ok term => .ok { p with operand := some (.dice term) }
    | .error why => .error (.atToken t (.invalidDice why))
  | .identifier => .ok { p with operand := some (.name (String.ofList t.text)) }
  | .string => .ok { p with operand := some (.string (String.ofList (unescape t.body))) }
  | .template => do
    let segments ← w.segments
    return { p with operand := some (.template segments) }
  | .leftParen => .ok { p with openings := (.paren, p.links) :: p.openings, links := [] }
  | kind =>
    match kind.unary? with
    | some op => .ok { p with links := .unary op :: p.links }
    | none => .error (.unexpected t operandKinds)

/-- Takes a token that ends the present expression `e`: one that an opening waits for, or a semicolon
where nothing is open. -/
def readEnd (p : Pending) (e : Expr) (t : Token) : Except SyntaxError Pending :=
  match p.openings with
  | [] =>
    if t.kind = .semicolon then
      .ok { p with before := some (append p.before e), links := [], operand := none }
    else .error (.unexpected t [.semicolon])
  | (opening, links) :: openings =>
    if t.kind = opening.closer then
      match opening with
      | .consequent condition =>
        .ok { p with openings, links := .alternative condition e :: links, operand := none }
      | .paren => .ok { p with openings, links, operand := some (.paren e) }
    else .error (.unexpected t [opening.closer])

/-- Takes a token that follows the operand `e`. -/
def readConnective (p : Pending) (e : Expr) (t : Token) : Except SyntaxError Pending :=
  match Connective.ofKind? t.kind with
  | some op =>
    let (links, left) := Link.settle op.tier p.links e
    .ok { p with links := .operand left op :: links, operand := none }
  | none =>
    match t.kind with
    | .question =>
      let (links, condition) := Link.settle 0 p.links e
      .ok { p with
        openings := (.consequent condition, links) :: p.openings, links := [], operand := none }
    | .equal =>
      match Link.settle 0 p.links e with
      | (links, .name name) => .ok { p with links := .assignment name :: links, operand := none }
      | _ => .error (.atToken t .invalidTarget)
    | _ => p.readEnd (Link.close p.links e) t

/-- Takes one token. -/
def read (p : Pending) (w : Word) : Except SyntaxError Pending :=
  match p.operand with
  | none => p.readOperand w
  | some e => p.readConnective e w.token

/-- The script that has been read, at the end of a text of which `stop` is the last byte's successor.
Only a semicolon may come last without an operand behind it. -/
def finish (p : Pending) (stop : Nat) : Except SyntaxError Script :=
  match p.operand, p.openings with
  | some e, [] => .ok (append p.before (Link.close p.links e))
  | some _, (opening, _) :: _ => .error (.atEnd stop [opening.closer])
  | none, openings =>
    match p.before, p.links, openings with
    | some script, [], [] => .ok script
    | _, _, _ => .error (.atEnd stop operandKinds)

end Pending
end Tabletop
