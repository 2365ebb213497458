import Tabletop.Program.Basic
import Tabletop.Run.Effect

/-!
# Running a program

The machine goes through the instructions with a stack of values, the topmost first. It passes each
instruction at most once: a jump leaves out instructions that follow, and one that would go back stops
the run.
-/

namespace Tabletop

namespace Run

variable {ρ : Type}

/-- The stack when the next instruction is reached, and how many instructions to leave out before it. -/
abbrev Outcome := List Value × Nat

/-- Leaves out the instructions between the one at `here` and the target of its jump. -/
def jumpTo (here target : Nat) (stack : List Value) : Run ρ Outcome :=
  if target < here + 1 then throw (.backwardJump here target)
  else return (stack, target - (here + 1))

/-- Carries out the instruction at `here`. -/
def step [Roller ρ] (here : Nat) (i : Instruction) (stack : List Value) : Run ρ Outcome :=
  match i, stack with
  | .push v, stack => return (v :: stack, 0)
  | .roll term, stack => do return ((← rollDice term) :: stack, 0)
  | .load name, stack => do return ((← load name) :: stack, 0)
  | .store name, v :: stack => do
    store name v
    return (v :: stack, 0)
  | .unary op, v :: stack => do return ((← unary op v) :: stack, 0)
  | .binary op, r :: l :: stack => do return ((← binary op l r) :: stack, 0)
  | .concat n, stack =>
    if stack.length < n then throw .stackUnderflow
    else return (.string (String.join ((stack.take n).reverse.map Value.text)) :: stack.drop n, 0)
  | .truthy, v :: stack => return (.ofBool v.truthy :: stack, 0)
  | .jump target, stack => jumpTo here target stack
  | .jumpIf target, v :: stack =>
    if v.truthy then jumpTo here target stack else return (stack, 0)
  | .jumpUnless target, v :: stack =>
    if v.truthy then return (stack, 0) else jumpTo here target stack
  | .pop, _ :: stack => return (stack, 0)
  | _, _ => throw .stackUnderflow

/-- Carries out the instructions from the place `here` on, leaving out the first `skip` of them, and
gives the stack at the end. -/
def code [Roller ρ] (here skip : Nat) : List Instruction → List Value → Run ρ (List Value)
  | [], stack => return stack
  | i :: rest, stack =>
    match skip with
    | skip + 1 => code (here + 1) skip rest stack
    | 0 => do
      let (stack, skip) ← step here i stack
      code (here + 1) skip rest stack

/-- Carries out a program; its result is the value on top of the stack. -/
def program [Roller ρ] (p : Program) : Run ρ Value := do
  match ← code 0 0 p.code [] with
  | v :: _ => return v
  | [] => throw .stackUnderflow

end Run
end Tabletop
