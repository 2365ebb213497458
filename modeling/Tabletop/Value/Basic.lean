import Tabletop.Number
import Tabletop.Text.Quoted

/-!
# Values

A value is a number or a text. Its plain text is what a template shows; its rendering is what a trace
shows, where a text stands between quotes and so cannot be mistaken for a number.
-/

namespace Tabletop

/-- A number or a text. -/
inductive Value where
  | number (x : Number)
  | string (s : String)
  deriving DecidableEq, Repr

/-- What kind of value a value is. -/
inductive ValueType where
  | number
  | string
  deriving DecidableEq, Repr

/-- The word for a type. -/
def ValueType.text : ValueType → String
  | number => "number"
  | string => "string"

namespace Value

/-- The type of a value. -/
def type : Value → ValueType
  | number _ => .number
  | string _ => .string

/-- A number other than zero and a text other than the empty one are true. -/
def truthy : Value → Bool
  | number x => x != 0
  | string s => s != ""

/-- One for true and zero for false. -/
def ofBool (b : Bool) : Value :=
  number (if b then 1 else 0)

/-- The plain text of a value. -/
def text : Value → String
  | number x => x.text
  | string s => s

/-- The text of a value in a trace: a text between quotes, a number as it is. -/
def render : Value → String
  | number x => x.text
  | string s => Text.quote s

end Value
end Tabletop
