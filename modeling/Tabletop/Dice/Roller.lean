import Tabletop.Random.Uniform

/-!
# Rollers

A roller throws dice. Any stream of random words is one. Two more throw what they are told to: a
`Stepper` counts up from a first value, and a `Cycle` of `Scripted` values goes round and round.
-/

namespace Tabletop

/-- A state from which dice are thrown. -/
class Roller (ρ : Type) where
  rollMany : Nat → Quantity → ρ → List UInt32 × ρ

instance {σ : Type} [WordSource σ] : Roller σ := ⟨throwMany⟩

/-- The face of a die that a prescribed value stands for: `1` for `1`, and then round and round. -/
def Quantity.faceFor (sides : Quantity) (value : UInt32) : UInt32 :=
  UInt32.ofNat ((value - 1).toNat % sides.val + 1)

/-- One prescribed value after the other, each `step` above the one before it. -/
structure Stepper where
  value : UInt32
  step : UInt32
  deriving Repr

namespace Stepper

/-- Takes a value for each die. -/
def rollMany (count : Nat) (sides : Quantity) (s : Stepper) : List UInt32 × Stepper :=
  match count with
  | 0 => ([], s)
  | count + 1 =>
    let (faces, rest) := rollMany count sides { s with value := s.value + s.step }
    (sides.faceFor s.value :: faces, rest)

instance : Roller Stepper := ⟨rollMany⟩

end Stepper

/-- A list of prescribed values that starts again when it is used up. -/
structure Scripted where
  values : Cycle
  deriving Repr

namespace Scripted

/-- Takes a value for each die. -/
def rollMany (count : Nat) (sides : Quantity) (s : Scripted) : List UInt32 × Scripted :=
  match count with
  | 0 => ([], s)
  | count + 1 =>
    let (value, values) := s.values.next
    let (faces, rest) := rollMany count sides { values }
    (sides.faceFor value :: faces, rest)

instance : Roller Scripted := ⟨rollMany⟩

end Scripted
end Tabletop
