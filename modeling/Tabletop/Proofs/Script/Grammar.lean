import Tabletop.Proofs.Script.Splitting
import Tabletop.Proofs.Text.Decimal
import Tabletop.Script.Reading

/-!
# The grammar of scripts

From loosest to tightest the grammar is

    program  = sequence ';'?
    sequence = expr (';' expr)*
    expr     = IDENTIFIER '=' expr | ternary
    ternary  = or ('?' expr ':' expr)?
    or       = and ('||' and)*
    and      = cmp ('&&' cmp)*
    cmp      = add (('<' | '>' | '<=' | '>=' | '==' | '!=') add)*
    add      = mul (('+' | '-') mul)*
    mul      = unary (('*' | '/' | '%') unary)*
    unary    = ('-' | '+' | '!') unary | atom
    atom     = INTEGER | DICE | IDENTIFIER | STRING | TEMPLATE | '(' expr ')'

`Derives` says which kinds of tokens the grammar derives in which order, and nothing about what is inside
a token.  `Expr.Reads` and `Script.Reads` say which tree tokens stand for: a chain such as `add` grows to
the right, its last operator standing above all others, and so its operators associate to the left.
-/

namespace Tabletop

/-! ## Which tokens make a phrase -/

/-- The phrases of the grammar. -/
inductive Phrase where
  | program
  | sequence
  | expr
  | ternary
  | or
  | and
  | cmp
  | add
  | mul
  | unary
  | atom
  deriving DecidableEq, Repr

namespace Phrase

/-- The tokens that join the parts of a chain. -/
def operators : Phrase → List TokenKind
  | or => [.pipePipe]
  | and => [.ampAmp]
  | cmp => [.lessThan, .greaterThan, .lessEqual, .greaterEqual, .equalEqual, .bangEqual]
  | add => [.plus, .minus]
  | mul => [.star, .slash, .percent]
  | _ => []

/-- The phrases that a chain is made of. -/
def part : Phrase → Phrase
  | or => and
  | and => cmp
  | cmp => add
  | add => mul
  | mul => unary
  | other => other

end Phrase

/-- The grammar derives the kinds of tokens as the phrase. -/
inductive Derives : Phrase → List TokenKind → Prop
  | program {ks} (h : Derives .sequence ks) : Derives .program ks
  | trailing {ks} (h : Derives .sequence ks) : Derives .program (ks ++ [.semicolon])
  | item {ks} (h : Derives .expr ks) : Derives .sequence ks
  | sequence {ls rs} (hl : Derives .sequence ls) (hr : Derives .expr rs) :
    Derives .sequence (ls ++ .semicolon :: rs)
  | assignment {ks} (h : Derives .expr ks) : Derives .expr (.identifier :: .equal :: ks)
  | expr {ks} (h : Derives .ternary ks) : Derives .expr ks
  | conditional {cs ts es} (hc : Derives .or cs) (ht : Derives .expr ts) (he : Derives .expr es) :
    Derives .ternary (cs ++ .question :: ts ++ .colon :: es)
  | ternary {ks} (h : Derives .or ks) : Derives .ternary ks
  | chain {phrase kind ls rs} (hkind : kind ∈ phrase.operators) (hl : Derives phrase ls)
    (hr : Derives phrase.part rs) : Derives phrase (ls ++ kind :: rs)
  | part {phrase ks} (hphrase : phrase.operators ≠ []) (h : Derives phrase.part ks) :
    Derives phrase ks
  | sign {kind ks} (hkind : kind ∈ [TokenKind.minus, .plus, .bang]) (h : Derives .unary ks) :
    Derives .unary (kind :: ks)
  | unary {ks} (h : Derives .atom ks) : Derives .unary ks
  | literal {kind} (hkind : kind ∈ [TokenKind.integer, .dice, .identifier, .string, .template]) :
    Derives .atom [kind]
  | paren {ks} (h : Derives .expr ks) : Derives .atom (.leftParen :: ks ++ [.rightParen])

/-! ## Which tree tokens stand for -/

/-- The least natural number that is too large for a number; behind a minus it is the least number. -/
def Number.bound : Nat :=
  0x8000000000000000

/-- The value of an integer. -/
def Token.value (t : Token) : Nat :=
  Text.Decimal.value t.text

mutual

/-- The tokens are the phrase, and as that phrase they stand for the expression. -/
inductive Expr.Reads : Phrase → List Token → Expr → Prop
  | assignment {name equal : Token} {ts e} (hname : name.kind = .identifier)
    (hequal : equal.kind = .equal) (h : Expr.Reads .expr ts e) :
    Expr.Reads .expr (name :: equal :: ts) (.assign (String.ofList name.text) e)
  | expr {ts e} (h : Expr.Reads .ternary ts e) : Expr.Reads .expr ts e
  | conditional {question colon : Token} {cs ts es c t e} (hquestion : question.kind = .question)
    (hcolon : colon.kind = .colon) (hc : Expr.Reads .or cs c) (ht : Expr.Reads .expr ts t)
    (he : Expr.Reads .expr es e) :
    Expr.Reads .ternary (cs ++ question :: ts ++ colon :: es) (.conditional c t e)
  | ternary {ts e} (h : Expr.Reads .or ts e) : Expr.Reads .ternary ts e
  | chain {phrase} {sign : Token} {op ls rs l r} (hsign : sign.kind ∈ phrase.operators)
    (hop : Connective.ofKind? sign.kind = some op) (hl : Expr.Reads phrase ls l)
    (hr : Expr.Reads phrase.part rs r) : Expr.Reads phrase (ls ++ sign :: rs) (op.join l r)
  | part {phrase ts e} (hphrase : phrase.operators ≠ []) (h : Expr.Reads phrase.part ts e) :
    Expr.Reads phrase ts e
  | sign {sign : Token} {op ts e} (hop : sign.kind.unary? = some op) (h : Expr.Reads .unary ts e) :
    Expr.Reads .unary (sign :: ts) (.unary op e)
  | least {minus t : Token} (hminus : minus.kind = .minus) (ht : t.kind = .integer)
    (hvalue : t.value = Number.bound) : Expr.Reads .unary [minus, t] (.number Int64.minValue)
  | unary {ts e} (h : Expr.Reads .atom ts e) : Expr.Reads .unary ts e
  | integer {t : Token} (ht : t.kind = .integer) (hvalue : t.value < Number.bound) :
    Expr.Reads .atom [t] (.number (Int64.ofNat t.value))
  | dice {t : Token} {term} (ht : t.kind = .dice) (hterm : DiceTerm.read t.text = .ok term) :
    Expr.Reads .atom [t] (.dice term)
  | name {t : Token} (ht : t.kind = .identifier) :
    Expr.Reads .atom [t] (.name (String.ofList t.text))
  | string {t : Token} (ht : t.kind = .string) :
    Expr.Reads .atom [t] (.string (String.ofList (Text.unescape t.body)))
  | template {t : Token} {pieces segments} (ht : t.kind = .template)
    (hsplits : Piece.Splits (t.start + 1) t.body pieces) (h : Segment.Reads pieces segments) :
    Expr.Reads .atom [t] (.template segments)
  | paren {left right : Token} {ts e} (hleft : left.kind = .leftParen)
    (hright : right.kind = .rightParen) (h : Expr.Reads .expr ts e) :
    Expr.Reads .atom (left :: ts ++ [right]) (.paren e)

/-- The pieces of a template stand for the segments. -/
inductive Segment.Reads : List Piece → List Segment → Prop
  | nil : Segment.Reads [] []
  | text {cs pieces segments} (h : Segment.Reads pieces segments) :
    Segment.Reads (.text cs :: pieces) (.text (String.ofList cs) :: segments)
  | code {start inner script pieces segments}
    (hscript : Script.Reads .program (Token.scan start inner) script)
    (h : Segment.Reads pieces segments) :
    Segment.Reads (.code start inner :: pieces) (.code script :: segments)

/-- The tokens are the phrase, and as that phrase they stand for the script. -/
inductive Script.Reads : Phrase → List Token → Script → Prop
  | program {ts s} (h : Script.Reads .sequence ts s) : Script.Reads .program ts s
  | trailing {semicolon : Token} {ts s} (hsemicolon : semicolon.kind = .semicolon)
    (h : Script.Reads .sequence ts s) : Script.Reads .program (ts ++ [semicolon]) s
  | item {ts e} (h : Expr.Reads .expr ts e) : Script.Reads .sequence ts (.single e)
  | sequence {semicolon : Token} {ls rs s e} (hsemicolon : semicolon.kind = .semicolon)
    (hl : Script.Reads .sequence ls s) (hr : Expr.Reads .expr rs e) :
    Script.Reads .sequence (ls ++ semicolon :: rs) (s.snoc e)

end
end Tabletop
