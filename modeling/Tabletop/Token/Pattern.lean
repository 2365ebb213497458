import Tabletop.Dice.Reading
import Tabletop.Text.Han
import Tabletop.Token.Kind

/-!
# The longest token at the front of a text

Each kind of token has a pattern, and `TokenKind.matchLength?` says how many characters its longest match
at the front of a text has. Of all kinds the one with the longest match is taken; of two equally long
ones a dice term comes before a name. A string or template that is never closed is a kind of its own,
and shorter than the closed one wherever there is a closing mark.
-/

namespace Tabletop

open Text

/-- The backtick, which stands at both ends of a template. -/
def templateMark : Char := '\x60'

/-- What separates tokens. -/
def isSpace (c : Char) : Bool :=
  c = ' ' || c = '\t' || c = '\r' || c = '\n'

/-- What a name can begin with. -/
def isNameStart (c : Char) : Bool :=
  c = '_' || c.isAlpha || isHan c

/-- What a name can go on with. -/
def isNamePart (c : Char) : Bool :=
  isNameStart c || c.isDigit

/-- How many characters at the front of a text satisfy `p`. -/
def runLength (p : Char → Bool) (cs : List Char) : Nat :=
  (cs.takeWhile p).length

namespace TokenKind

/-- The length `n`, if it is not zero. -/
def positive? (n : Nat) : Option Nat :=
  if n = 0 then none else some n

/-- The length of the number in front. -/
def digitRun (cs : List Char) : Nat :=
  runLength Char.isDigit cs

/-- The length of the name in front. -/
def nameLength? : List Char → Option Nat
  | [] => none
  | c :: cs => if isNameStart c then some (runLength isNamePart cs + 1) else none

/-- The length of the sides in front: `%` or a number. -/
def sidesLength? : List Char → Option Nat
  | '%' :: _ => some 1
  | cs => positive? (digitRun cs)

/-- The length of the modifier in front, if one begins there. -/
def modifierLength : List Char → Nat
  | [] => 0
  | c :: cs =>
    if DiceTerm.beginsModifier c then
      match cs with
      | 'h' :: ds => digitRun ds + 2
      | 'l' :: ds => digitRun ds + 2
      | ds => digitRun ds + 1
    else 0

/-- The length of the dice term in front: a count or none, `d` or `D`, sides, a modifier or none. -/
def diceLength? (cs : List Char) : Option Nat :=
  match cs.drop (digitRun cs) with
  | [] => none
  | c :: rest =>
    if DiceTerm.isDelimiter c then
      (sidesLength? rest).map fun sides =>
        digitRun cs + 1 + sides + modifierLength (rest.drop sides)
    else none

/-- The length of what can stand inside a string: characters other than the quote, and a backslash only
with a character after it that does not end the line. -/
def stringRun : List Char → Nat
  | [] => 0
  | '\\' :: c :: cs => if c = '\n' then 0 else stringRun cs + 2
  | c :: cs => if c = '"' || c = '\\' then 0 else stringRun cs + 1

/-- The length of what can stand inside a template. -/
def templateRun (cs : List Char) : Nat :=
  runLength (· != templateMark) cs

/-- The length of the text in front between two marks with a run of `inner` characters between them. -/
def enclosedLength? (mark : Char) (inner : List Char → Nat) : List Char → Option Nat
  | [] => none
  | c :: cs => if c = mark && cs[inner cs]? = some mark then some (inner cs + 2) else none

/-- The length of the text in front from a mark on, as far as the run goes. -/
def openLength? (mark : Char) (inner : List Char → Nat) : List Char → Option Nat
  | [] => none
  | c :: cs => if c = mark then some (inner cs + 1) else none

/-- The length of a fixed spelling, if it stands in front. -/
def spellingLength? (spelling : List Char) (cs : List Char) : Option Nat :=
  if spelling.isPrefixOf cs then some spelling.length else none

/-- The length of the longest match of a kind's pattern at the front of a text. -/
def matchLength? (kind : TokenKind) (cs : List Char) : Option Nat :=
  match kind with
  | integer => positive? (digitRun cs)
  | dice => diceLength? cs
  | identifier => nameLength? cs
  | string => enclosedLength? '"' stringRun cs
  | template => enclosedLength? templateMark templateRun cs
  | unclosedString => openLength? '"' stringRun cs
  | unclosedTemplate => openLength? templateMark templateRun cs
  | unknown => none
  | _ => kind.spelling?.bind fun spelling => spellingLength? spelling.toList cs

/-- The kinds that have a pattern; of two equally long matches the earlier kind is taken. -/
def patterned : List TokenKind :=
  [integer, dice, identifier, string, template, leftParen, rightParen, semicolon, question, colon, plus,
   minus, star, slash, percent, bang, equal, equalEqual, greaterEqual, lessEqual, bangEqual, lessThan,
   greaterThan, ampAmp, pipePipe, unclosedString, unclosedTemplate]

/-- The better of the best match so far and the match of one more kind. -/
def better (cs : List Char) (best : Option (TokenKind × Nat)) (kind : TokenKind) :
    Option (TokenKind × Nat) :=
  match best, kind.matchLength? cs with
  | best, none => best
  | none, some n => some (kind, n)
  | some (other, m), some n => if m < n then some (kind, n) else some (other, m)

/-- The kind with the longest match at the front of a text, and the length of that match. -/
def longest? (cs : List Char) : Option (TokenKind × Nat) :=
  patterned.foldl (better cs) none

end TokenKind
end Tabletop
