/-!
# Dice terms

A dice term says how many dice are thrown, how many sides each has, and which of them count. The
quantities are never zero, so a term always throws something and a die always has a face to show.
-/

namespace Tabletop

/-- A whole number from `1` to `2^32 - 1`: how many dice, or how many sides. -/
structure Quantity where
  val : Nat
  pos : 0 < val := by decide
  lt : val < 0x100000000 := by decide
  deriving DecidableEq, Repr

namespace Quantity

/-- The quantity `n`, unless `n` is zero or too large. -/
def ofNat? (n : Nat) : Option Quantity :=
  if h : 0 < n ∧ n < 0x100000000 then some ⟨n, h.1, h.2⟩ else none

/-- The decimal text of a quantity. -/
def text (n : Quantity) : String :=
  toString n.val

end Quantity

/-- The sides of a die: so many, or a hundred written as `%`. -/
inductive Sides where
  | poly (count : Quantity)
  | percentile
  deriving DecidableEq, Repr

namespace Sides

/-- The highest face. -/
def faces : Sides → Quantity
  | poly count => count
  | percentile => ⟨100, by decide, by decide⟩

/-- How the sides are written in a term. -/
def text : Sides → String
  | poly count => count.text
  | percentile => "%"

end Sides

/-- Which dice a modifier picks: so many of the highest or of the lowest. -/
inductive Selector where
  | highest (count : UInt32)
  | lowest (count : UInt32)
  deriving DecidableEq, Repr

namespace Selector

/-- How many dice are picked, if that many were thrown. -/
def count : Selector → Nat
  | highest n => n.toNat
  | lowest n => n.toNat

/-- How a selector is written in a term. -/
def text : Selector → String
  | highest n => "h" ++ toString n.toNat
  | lowest n => "l" ++ toString n.toNat

end Selector

/-- What happens to the dice that a selector picks: they alone are kept, or they alone are dropped. -/
inductive Modifier where
  | keep (selector : Selector)
  | drop (selector : Selector)
  deriving DecidableEq, Repr

namespace Modifier

/-- The dice that a modifier is about. -/
def selector : Modifier → Selector
  | keep s => s
  | drop s => s

/-- Whether the picked dice are the ones that stay. -/
def keeps : Modifier → Bool
  | keep _ => true
  | drop _ => false

/-- How a modifier is written in a term. -/
def text : Modifier → String
  | keep s => "k" ++ s.text
  | drop s => "p" ++ s.text

end Modifier

/-- So many dice with so many sides, and which of them count. -/
structure DiceTerm where
  count : Quantity
  sides : Sides
  modifier : Option Modifier := none
  deriving DecidableEq, Repr

namespace DiceTerm

/-- The full form of a term, such as `1d20` or `4d6kh3`. -/
def text (term : DiceTerm) : String :=
  term.count.text ++ "d" ++ term.sides.text ++ (term.modifier.map Modifier.text).getD ""

end DiceTerm
end Tabletop
