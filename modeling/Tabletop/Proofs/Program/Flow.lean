import Tabletop.Program.Basic

/-!
# Control flow and stack heights

What can be said about a program without running it: where an instruction can go on, and how many values
it takes off the stack and leaves there.  `Program.Flows` follows every combination of taken and untaken
jumps.

An assignment of heights to places `Fits` the instructions of a program if the values that each one takes
are there, its jumps go forward and stay inside the program, and every place at which it can go on has the
height that it leaves.  Such an assignment gives the height of the stack on every way through the program;
that is `Program.Flows.height_eq`.
-/

namespace Tabletop

namespace Instruction

/-- Where an instruction jumps to, if it can jump. -/
def target? : Instruction → Option Nat
  | jump target => some target
  | jumpIf target => some target
  | jumpUnless target => some target
  | _ => none

/-- How many values an instruction has to find on the stack. -/
def takes : Instruction → Nat
  | push _ => 0
  | roll _ => 0
  | load _ => 0
  | store _ => 1
  | unary _ => 1
  | binary _ => 2
  | concat n => n
  | truthy => 1
  | jump _ => 0
  | jumpIf _ => 1
  | jumpUnless _ => 1
  | pop => 1

/-- How many values it leaves in place of those. -/
def leaves : Instruction → Nat
  | jump _ => 0
  | jumpIf _ => 0
  | jumpUnless _ => 0
  | pop => 0
  | _ => 1

/-- The places at which the machine can go on after the instruction at `here`. -/
def successors (here : Nat) : Instruction → List Nat
  | jump target => [target]
  | jumpIf target => [here + 1, target]
  | jumpUnless target => [here + 1, target]
  | _ => [here + 1]

theorem target_mem_successors {i : Instruction} {target : Nat} (h : i.target? = some target)
    (here : Nat) : target ∈ i.successors here := by
  cases i <;> simp_all [target?, successors]

end Instruction

/-! ## Heights that fit -/

/-- The heights fit an instruction at `here` of a program that ends at `stop`. -/
structure Instruction.Fits (height : Nat → Nat) (here stop : Nat) (i : Instruction) : Prop where
  takes_le : i.takes ≤ height here
  forward : ∀ place ∈ i.successors here, here < place ∧ place ≤ stop
  height_eq : ∀ place ∈ i.successors here, height place = height here - i.takes + i.leaves

/-- The values that an instruction takes stand above `below` others, and so do those that it leaves. -/
theorem Instruction.Fits.of_next {height : Nat → Nat} {here stop below : Nat} {i : Instruction}
    (hsuccessors : i.successors here = [here + 1]) (hstop : here < stop)
    (hhere : height here = below + i.takes) (hnext : height (here + 1) = below + i.leaves) :
    i.Fits height here stop := by
  refine ⟨by omega, fun place hplace => ?_, fun place hplace => ?_⟩
  · rw [hsuccessors, List.mem_singleton] at hplace
    omega
  · rw [hsuccessors, List.mem_singleton] at hplace
    rw [hplace, hnext, hhere, Nat.add_sub_cancel]

theorem Instruction.fits_jump {height : Nat → Nat} {here stop target : Nat}
    (hforward : here < target) (hinside : target ≤ stop) (htarget : height target = height here) :
    (jump target).Fits height here stop := by
  refine ⟨Nat.zero_le _, fun place hplace => ?_, fun place hplace => ?_⟩
  · rw [List.mem_singleton.1 hplace]
    exact ⟨hforward, hinside⟩
  · rw [List.mem_singleton.1 hplace]
    exact htarget

/-- A jump that is taken or not leaves the same height both ways. -/
theorem Instruction.fits_of_branch {height : Nat → Nat} {here stop target : Nat} {i : Instruction}
    (hi : i = jumpIf target ∨ i = jumpUnless target) (hforward : here < target)
    (hinside : target ≤ stop) (hnext : height here = height (here + 1) + 1)
    (htarget : height here = height target + 1) : i.Fits height here stop := by
  have htakes : i.takes = 1 ∧ i.leaves = 0 ∧ i.successors here = [here + 1, target] := by
    rcases hi with rfl | rfl <;> exact ⟨rfl, rfl, rfl⟩
  obtain ⟨htakes, hleaves, hsuccessors⟩ := htakes
  refine ⟨by omega, fun place hplace => ?_, fun place hplace => ?_⟩
  all_goals
    rw [hsuccessors, List.mem_cons, List.mem_singleton] at hplace
    rcases hplace with rfl | rfl <;> omega

/-- The heights fit the instructions from the place `here` on. -/
def Fits (height : Nat → Nat) (here stop : Nat) : List Instruction → Prop
  | [] => True
  | i :: rest => i.Fits height here stop ∧ Fits height (here + 1) stop rest

section

variable {height : Nat → Nat} {here stop : Nat} {code rest : List Instruction}

@[simp]
theorem fits_nil : Fits height here stop [] := trivial

@[simp]
theorem fits_cons {i : Instruction} :
    Fits height here stop (i :: rest) ↔
      i.Fits height here stop ∧ Fits height (here + 1) stop rest :=
  Iff.rfl

@[simp]
theorem fits_append :
    Fits height here stop (code ++ rest) ↔
      Fits height here stop code ∧ Fits height (here + code.length) stop rest := by
  induction code generalizing here with
  | nil => simp
  | cons i code ih =>
    rw [List.cons_append, fits_cons, fits_cons, ih, List.length_cons, and_assoc,
      Nat.add_assoc, Nat.add_comm 1]

/-- Where a program ends matters only as a bound for its jumps. -/
theorem Fits.of_le {later : Nat} (h : Fits height here stop code) (hstop : stop ≤ later) :
    Fits height here later code := by
  induction code generalizing here with
  | nil => trivial
  | cons i code ih =>
    obtain ⟨hi, hcode⟩ := h
    refine ⟨⟨hi.takes_le, fun place hplace => ?_, hi.height_eq⟩, ih hcode⟩
    obtain ⟨hforward, hinside⟩ := hi.forward place hplace
    exact ⟨hforward, by omega⟩

theorem Fits.getElem? {k : Nat} {i : Instruction} (h : Fits height here stop code)
    (hi : code[k]? = some i) : i.Fits height (here + k) stop := by
  induction code generalizing here k with
  | nil => simp at hi
  | cons j code ih =>
    cases k with
    | zero =>
      rw [List.getElem?_cons_zero, Option.some.injEq] at hi
      rw [← hi]
      exact h.1
    | succ k =>
      rw [List.getElem?_cons_succ] at hi
      have hfits := ih h.2 hi
      rwa [Nat.add_assoc, Nat.add_comm 1] at hfits

end

/-! ## Ways through a program -/

namespace Program

/-- Some way through the program, on which every jump that has a choice goes either way, leads to `place`
with so many values on the stack. -/
inductive Flows (program : Program) : (place height : Nat) → Prop
  | start : Flows program 0 0
  | next {here height i place} (h : Flows program here height) (hi : program.code[here]? = some i)
    (hplace : place ∈ i.successors here) : Flows program place (height - i.takes + i.leaves)

/-- On every way through a program the stack has the height that fits. -/
theorem Flows.height_eq {program : Program} {height : Nat → Nat}
    (hfits : Tabletop.Fits height 0 program.size program.code) (hstart : height 0 = 0)
    {place n : Nat} (h : program.Flows place n) : n = height place ∧ place ≤ program.size := by
  induction h with
  | start => exact ⟨hstart.symm, Nat.zero_le _⟩
  | next _ hi hplace ih =>
    have hfit := hfits.getElem? hi
    rw [Nat.zero_add] at hfit
    rw [ih.1, hfit.height_eq _ hplace]
    exact ⟨rfl, (hfit.forward _ hplace).2⟩

end Program
end Tabletop
