import Tabletop.Dice.Basic
import Tabletop.Text.Decimal
import Tabletop.Text.Quoted

/-!
# Reading dice terms

A term is a count, `d` or `D`, the sides, and a modifier: `k` or `p`, then `h` or `l`, then a number.
The count and the two parts of the modifier after its letter may be left out: one die is thrown, `k`
keeps the highest, `p` drops the lowest, and the number is one. The parts are checked from left to
right and the first fault is reported.
-/

namespace Tabletop

open Text

/-- The greatest count, number of sides or number in a modifier. -/
def maxQuantity : Nat := 0xFFFFFFFF

/-- Why a text is not a dice term. -/
inductive DiceFault where
  | noDelimiter
  | zeroDice
  | zeroSides
  | invalidNumber (why : Decimal.Fault)
  | invalidSides (why : Decimal.Fault)
  | unknownModifier (text : String)
  deriving DecidableEq, Repr

/-- The wording of a fault. -/
def DiceFault.message : DiceFault → String
  | .noDelimiter => "cannot parse string as dice without 'd' delimiter"
  | .zeroDice => "at least one die must be rolled"
  | .zeroSides => "a die must have at least one face"
  | .invalidNumber why => why.message
  | .invalidSides why => why.message
  | .unknownModifier text => "unknown dice operator " ++ quote text

/-- Reads the sides of a die: `%`, or a number other than zero. -/
def Sides.read (cs : List Char) : Except Decimal.Fault Sides :=
  if cs = ['%'] then .ok .percentile
  else do
    let n ← Decimal.read maxQuantity cs
    match Quantity.ofNat? n with
    | some count => .ok (.poly count)
    | none => .error .zero

/-- Reads the number of dice that a modifier picks; it is one if nothing is written. -/
def Selector.readCount (cs : List Char) : Except DiceFault UInt32 :=
  if cs.isEmpty then .ok 1
  else (Decimal.read maxQuantity cs).mapError .invalidNumber |>.map UInt32.ofNat

/-- Reads a selector, which is a `usual` one if neither `h` nor `l` is written. -/
def Selector.read (usual : UInt32 → Selector) : List Char → Except DiceFault Selector
  | 'h' :: cs => (readCount cs).map .highest
  | 'l' :: cs => (readCount cs).map .lowest
  | cs => (readCount cs).map usual

/-- Reads a modifier. -/
def Modifier.read : List Char → Except DiceFault Modifier
  | 'k' :: cs => (Selector.read .highest cs).map .keep
  | 'p' :: cs => (Selector.read .lowest cs).map .drop
  | cs => .error (.unknownModifier (String.ofList cs))

namespace DiceTerm

/-- The letter between the count and the sides. -/
def isDelimiter (c : Char) : Bool :=
  c = 'd' || c = 'D'

/-- A letter that begins a modifier. -/
def beginsModifier (c : Char) : Bool :=
  c = 'k' || c = 'p'

/-- Reads the number of dice; it is one if nothing is written. -/
def readCount (cs : List Char) : Except DiceFault Quantity :=
  if cs.isEmpty then .ok ⟨1, by decide, by decide⟩
  else do
    let n ← (Decimal.read maxQuantity cs).mapError .invalidNumber
    match Quantity.ofNat? n with
    | some count => .ok count
    | none => .error .zeroDice

/-- Reads the sides inside a term. -/
def readSides (cs : List Char) : Except DiceFault Sides :=
  (Sides.read cs).mapError fun
    | .zero => .zeroSides
    | why => .invalidSides why

/-- Reads a modifier or the lack of one. -/
def readModifier (cs : List Char) : Except DiceFault (Option Modifier) :=
  if cs.isEmpty then .ok none else (Modifier.read cs).map some

/-- Reads a dice term. -/
def read (cs : List Char) : Except DiceFault DiceTerm :=
  match cs.dropWhile (!isDelimiter ·) with
  | [] => .error .noDelimiter
  | _ :: rest => do
    let count ← readCount (cs.takeWhile (!isDelimiter ·))
    let sides ← readSides (rest.takeWhile (!beginsModifier ·))
    let modifier ← readModifier (rest.dropWhile (!beginsModifier ·))
    return { count, sides, modifier }

end DiceTerm
end Tabletop
