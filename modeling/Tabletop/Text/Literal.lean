/-!
# String literals

Between the quotes of a literal a backslash gives the character after it another meaning: `\n` is a new
line, `\t` a tab, and every other character stands for itself.
-/

namespace Tabletop.Text

/-- The character that an escaped character stands for. -/
def escapedChar : Char → Char
  | 'n' => '\n'
  | 't' => '\t'
  | c => c

/-- The text that the inside of a literal stands for. A backslash with nothing after it stands for
itself. -/
def unescape : List Char → List Char
  | [] => []
  | '\\' :: c :: cs => escapedChar c :: unescape cs
  | c :: cs => c :: unescape cs

end Tabletop.Text
