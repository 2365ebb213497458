import Tabletop.Text.Coded

/-!
# Quoted text

Messages, traces and listings show a text between double quotes. What could be mistaken for the end of
the text or could not be seen is escaped; all else stands for itself.
-/

namespace Tabletop.Text

/-- A character by its code point, in lower-case hexadecimal without leading zeros. -/
def encodeByCode (c : Char) : List Char :=
  '\\' :: 'u' :: '\x7b' :: Nat.toDigits 16 c.toNat ++ ['\x7d']

/-- One character as it stands between quotes. -/
def encodeChar (c : Char) : List Char :=
  match c with
  | '\x00' => ['\\', '0']
  | '\t' => ['\\', 't']
  | '\n' => ['\\', 'n']
  | '\r' => ['\\', 'r']
  | '"' => ['\\', '"']
  | '\\' => ['\\', '\\']
  | c => if isCoded c then encodeByCode c else [c]

/-- A text between double quotes. -/
def quote (s : String) : String :=
  String.ofList ('"' :: s.toList.flatMap encodeChar ++ ['"'])

end Tabletop.Text
