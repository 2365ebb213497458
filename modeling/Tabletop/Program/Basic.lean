import Tabletop.Dice.Basic
import Tabletop.Operator
import Tabletop.Value.Basic

/-!
# Programs

A program is a list of instructions for a machine with a stack of values. Jumps name the instruction at
which to go on by its place in the list; the place just behind the list is the end of the program.
-/

namespace Tabletop

/-- One step of a machine. -/
inductive Instruction where
  /-- Puts a value on the stack. -/
  | push (v : Value)
  /-- Rolls dice and puts their total on the stack. -/
  | roll (term : DiceTerm)
  /-- Puts the value of a variable on the stack. -/
  | load (name : String)
  /-- Assigns the top of the stack to a variable and leaves it there. -/
  | store (name : String)
  /-- Replaces the top of the stack by what the operator makes of it. -/
  | unary (op : UnaryOperator)
  /-- Replaces the two topmost values by what the operator makes of them. -/
  | binary (op : BinaryOperator)
  /-- Replaces the `n` topmost values by their texts, joined in the order in which they were put there. -/
  | concat (n : Nat)
  /-- Replaces the top of the stack by one or zero. -/
  | truthy
  /-- Goes on at the target. -/
  | jump (target : Nat)
  /-- Takes the top off the stack and goes on at the target if it is true. -/
  | jumpIf (target : Nat)
  /-- Takes the top off the stack and goes on at the target if it is false. -/
  | jumpUnless (target : Nat)
  /-- Takes the top off the stack. -/
  | pop
  deriving DecidableEq, Repr

/-- How an instruction is listed. -/
def Instruction.text : Instruction → String
  | push v => "push " ++ v.render
  | roll term => "roll " ++ term.text
  | load name => "load " ++ name
  | store name => "store " ++ name
  | unary op => "unary " ++ op.text
  | binary op => "binary " ++ op.text
  | concat n => "concat " ++ toString n
  | truthy => "truthy"
  | jump target => "jump " ++ toString target
  | jumpIf target => "jump_if " ++ toString target
  | jumpUnless target => "jump_unless " ++ toString target
  | pop => "pop"

/-- A list of instructions. -/
structure Program where
  code : List Instruction := []
  deriving DecidableEq, Repr

namespace Program

/-- How many instructions there are. -/
def size (p : Program) : Nat :=
  p.code.length

/-- A place in a listing: at least four digits. -/
def placeText (place : Nat) : String :=
  let digits := toString place
  String.ofList (List.replicate (4 - digits.length) '0') ++ digits

/-- The listing of a program, a line for each instruction. -/
def listing (p : Program) : String :=
  String.join (p.code.zipIdx.map fun (i, place) => placeText place ++ " " ++ i.text ++ "\n")

end Program
end Tabletop
