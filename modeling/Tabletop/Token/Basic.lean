import Tabletop.Text.Width
import Tabletop.Token.Pattern

/-!
# Tokens

A source text is cut into tokens from left to right, each the longest that can stand there. White space
is passed over, and a character with which no token begins is a token of the kind `unknown` of its own.
-/

namespace Tabletop

open Text

/-- A piece of source text: what it is, its characters, and the byte at which it starts. -/
structure Token where
  kind : TokenKind
  text : List Char
  start : Nat
  deriving DecidableEq, Repr

namespace Token

/-- The byte just behind a token. -/
def stop (t : Token) : Nat :=
  t.start + width t.text

/-- The tokens of a text whose first character is at the byte `start`. -/
def scan (start : Nat) : List Char → List Token
  | [] => []
  | c :: cs =>
    if isSpace c then scan (start + c.utf8Size) cs
    else
      let (kind, length) := (TokenKind.longest? (c :: cs)).getD (.unknown, 1)
      let text := c :: cs.take (length - 1)
      ⟨kind, text, start⟩ :: scan (start + width text) (cs.drop (length - 1))
termination_by cs => cs.length

/-- The characters of a string or a template without the marks at its two ends. -/
def body (t : Token) : List Char :=
  t.text.tail.dropLast

end Token
end Tabletop
