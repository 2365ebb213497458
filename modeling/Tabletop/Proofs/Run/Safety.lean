import Tabletop.Proofs.Dice.Faces
import Tabletop.Proofs.Program.Heights
import Tabletop.Proofs.Run.Execution

/-!
# Compiled programs do not go astray

Every execution is one of the ways through the control flow of its program, so the heights that fit a
program bound every run of it.  For the program of a script this leaves none of the internal errors: the
stack never runs out, no jump goes back, and a term rolls nothing only if its roller throws fewer dice
than it is asked for.
-/

namespace Tabletop

/-- The errors that a script cannot cause. -/
def RunError.Internal : RunError → Prop
  | .stackUnderflow => True
  | .backwardJump _ _ => True
  | .rolledNothing _ => True
  | _ => False

/-- A roller that throws as many dice as it is asked for. -/
def Roller.Exact (ρ : Type) [Roller ρ] : Prop :=
  ∀ (count : Nat) (sides : Quantity) (roller : ρ),
    (Roller.rollMany count sides roller).1.length = count

/-! ## The errors of the operators -/

theorem not_internal_of_exactly {i : Int} {why : RunError} (h : exactly i = .error why) :
    ¬why.Internal := by
  unfold exactly at h
  split at h
  · cases h
  · cases h
    exact id

theorem Value.not_internal_of_expectNumber {symbol : String} {v : Value} {why : RunError}
    (h : v.expectNumber symbol = .error why) : ¬why.Internal := by
  cases v with
  | number x => cases h
  | string s =>
    cases h
    exact id

/-- A computation in two parts has no errors but those of the parts. -/
theorem not_internal_of_bind {α : Type} {x : Except RunError α} {f : α → Except RunError Value}
    {why : RunError} (hx : ∀ why, x = .error why → ¬why.Internal)
    (hf : ∀ a why, f a = .error why → ¬why.Internal) (h : x >>= f = .error why) :
    ¬why.Internal := by
  cases x with
  | error _ =>
    cases h
    exact hx why rfl
  | ok a => exact hf a why h

theorem Arithmetic.not_internal_of_compute {op : Arithmetic} {x y : Number} {why : RunError}
    (h : op.compute x y = .error why) : ¬why.Internal := by
  cases op with
  | add => exact not_internal_of_exactly h
  | sub => exact not_internal_of_exactly h
  | mul => exact not_internal_of_exactly h
  | div =>
    rw [compute] at h
    split at h
    · cases h
      exact id
    · exact not_internal_of_exactly h
  | rem =>
    rw [compute] at h
    split at h
    · cases h
      exact id
    · exact not_internal_of_bind (fun _ => not_internal_of_exactly)
        (fun _ _ => not_internal_of_exactly) h

theorem UnaryOperator.not_internal_of_apply {op : UnaryOperator} {v : Value} {why : RunError}
    (h : op.apply v = .error why) : ¬why.Internal := by
  cases op with
  | plus =>
    cases v with
    | number x => cases h
    | string s =>
      cases h
      exact id
  | minus =>
    exact not_internal_of_bind (fun _ => Value.not_internal_of_expectNumber)
      (fun _ _ => not_internal_of_exactly) h
  | not => cases h

theorem BinaryOperator.not_internal_of_apply {op : BinaryOperator} {l r : Value} {why : RunError}
    (h : op.apply l r = .error why) : ¬why.Internal := by
  cases op with
  | arithmetic op =>
    refine not_internal_of_bind (fun _ => Value.not_internal_of_expectNumber) (fun x _ h => ?_) h
    exact not_internal_of_bind (fun _ => Value.not_internal_of_expectNumber)
      (fun y _ => Arithmetic.not_internal_of_compute) h
  | comparison op =>
    rw [apply] at h
    split at h
    · cases h
    · cases h
      exact id

namespace Run

variable {ρ : Type} [Roller ρ]

/-! ## Executions follow the control flow -/

theorem Advances.flow {setting : Setting} {here place : Nat} {i : Instruction}
    {stack stack' : List Value} {p q : Progress ρ}
    (h : Advances setting here i stack p place stack' q) :
    place ∈ i.successors here ∧ stack'.length = stack.length - i.takes + i.leaves := by
  cases h <;> simp [Instruction.successors, Instruction.takes, Instruction.leaves]

/-- An execution is one of the ways through its program. -/
theorem Reaches.flows {setting : Setting} {program : Program} {p q : Progress ρ}
    {done : List (Instruction × List Value)} {place : Nat} {stack : List Value}
    (h : Reaches setting program.code p done place stack q) : program.Flows place stack.length := by
  induction h with
  | start => exact .start
  | next _ hi hstep ih =>
    obtain ⟨hplace, hlength⟩ := hstep.flow
    rw [hlength]
    exact .next ih hi hplace

/-! ## Rolls -/

theorem facesFrom_ne_nil (hroller : Roller.Exact ρ) (term : DiceTerm) (rule : Option BigFailRule)
    (roller : ρ) : (term.facesFrom rule roller).isEmpty = false := by
  have hlength : (term.facesFrom rule roller).length = term.count.val := by
    rw [DiceTerm.facesFrom, DiceTerm.length_judge, hroller]
  have hpos := term.count.pos
  rw [List.isEmpty_eq_false_iff_exists_mem]
  exact List.exists_mem_of_length_pos (by omega)

/-- A term that rolls nothing shows that its roller threw too few dice. -/
theorem not_exact_of_rollDice {term : DiceTerm} {setting : Setting} {p q : Progress ρ}
    {why : RunError} (h : rollDice term setting p = .error why q) (hwhy : why.Internal) :
    ∃ term, why = .rolledNothing term ∧ ¬Roller.Exact ρ := by
  rcases rollDice_error h with ⟨limit, rfl, _⟩ | ⟨_, _, rfl | ⟨rfl, hempty⟩⟩
  · exact hwhy.elim
  · exact hwhy.elim
  · refine ⟨term, rfl, fun hroller => ?_⟩
    rw [facesFrom_ne_nil hroller] at hempty
    cases hempty

/-! ## Instructions whose heights fit -/

/-- An instruction that finds the height that fits it stops with an internal error only for want of
dice. -/
theorem Stops.not_exact {setting : Setting} {here stop : Nat} {i : Instruction} {height : Nat → Nat}
    {stack : List Value} {p q : Progress ρ} {why : RunError} (hfits : i.Fits height here stop)
    (hstack : stack.length = height here) (h : Stops setting here i stack p why q)
    (hwhy : why.Internal) : ∃ term, why = .rolledNothing term ∧ ¬Roller.Exact ρ := by
  cases h with
  | roll h => exact not_exact_of_rollDice h hwhy
  | load h =>
    obtain ⟨rfl, _⟩ := load_error h
    exact hwhy.elim
  | unary h => exact absurd hwhy (UnaryOperator.not_internal_of_apply (unary_error h).1)
  | binary h => exact absurd hwhy (BinaryOperator.not_internal_of_apply (binary_error h).1)
  | underflow h =>
    have htakes := hfits.takes_le
    omega
  | backward htarget h =>
    have hforward := hfits.forward _ (Instruction.target_mem_successors htarget here)
    omega

/-- How a run of the program of a script ends: with its result alone on the stack, or with an error that
is not an internal one unless dice are missing. -/
theorem code_compile_safe (script : Script) (setting : Setting) (p : Progress ρ) :
    match code 0 0 script.compile.code [] setting p with
    | .ok stack _ => stack.length = 1
    | .error why _ => why.Internal → ∃ term, why = .rolledNothing term ∧ ¬Roller.Exact ρ := by
  have hheight : ∀ {place n}, script.compile.Flows place n →
      n = script.heightAt place ∧ place ≤ script.compile.size :=
    fun h => h.height_eq script.fits_compile script.heightAt_zero
  split
  · rename_i stack q hcode
    obtain ⟨done, place, hreaches, hend⟩ := reaches_of_code_ok hcode
    obtain ⟨hlength, hinside⟩ := hheight hreaches.flows
    have hplace : place = script.compile.size := Nat.le_antisymm hinside hend
    rw [hlength, hplace, script.heightAt_size]
  · rename_i why q hcode
    obtain ⟨done, here, stack, r, i, hreaches, hi, hstops⟩ := reaches_of_code_error hcode
    have hfits := script.fits_compile.getElem? hi
    rw [Nat.zero_add] at hfits
    exact hstops.not_exact hfits (hheight hreaches.flows).1

/-- The result of a program is on top of the stack at its end. -/
theorem program_apply (program : Program) (setting : Setting) (p : Progress ρ) :
    Run.program program setting p =
      match code 0 0 program.code [] setting p with
      | .ok (v :: _) q => .ok v q
      | .ok [] q => .error .stackUnderflow q
      | .error why q => .error why q := by
  rw [Run.program, bind_apply]
  rcases code 0 0 program.code [] setting p with ⟨_ | ⟨v, stack⟩, q⟩ | ⟨why, q⟩ <;> rfl

end Run

/-- The program of a script is well formed on every way through it: jumps go forward and stay inside the
program, the height of the stack depends on the place alone, every instruction finds what it takes, and one
value is left at the end.  So no run of it stops with an internal error, unless a roller throws too few
dice for a term, and a run that ends leaves nothing under its result. -/
theorem Script.compile_wellFormed {ρ : Type} [Roller ρ] (script : Script) :
    (∀ here i target, script.compile.code[here]? = some i → i.target? = some target →
      here < target ∧ target ≤ script.compile.size) ∧
    (∃ heightAt : Nat → Nat, ∀ place height, script.compile.Flows place height →
      place ≤ script.compile.size ∧ height = heightAt place ∧
      (∀ i, script.compile.code[place]? = some i → i.takes ≤ height) ∧
      (place = script.compile.size → height = 1)) ∧
    (∀ (setting : Setting) (p : Progress ρ),
      (∀ why q, Run.program script.compile setting p = .error why q → why.Internal →
        ∃ term, why = .rolledNothing term ∧ ¬Roller.Exact ρ) ∧
      (∀ stack q, Run.code 0 0 script.compile.code [] setting p = .ok stack q →
        stack.length = 1)) := by
  have hfits : ∀ {here : Nat} {i : Instruction}, script.compile.code[here]? = some i →
      i.Fits script.heightAt here script.compile.size := by
    intro here i hi
    have hfit := script.fits_compile.getElem? hi
    rwa [Nat.zero_add] at hfit
  refine ⟨?_, ⟨script.heightAt, ?_⟩, ?_⟩
  · intro here i target hi htarget
    exact (hfits hi).forward target (Instruction.target_mem_successors htarget here)
  · intro place height hflows
    obtain ⟨hheight, hinside⟩ := hflows.height_eq script.fits_compile script.heightAt_zero
    refine ⟨hinside, hheight, ?_, ?_⟩
    · intro i hi
      rw [hheight]
      exact (hfits hi).takes_le
    · intro hend
      rw [hheight, hend, script.heightAt_size]
  · intro setting p
    have hsafe := Run.code_compile_safe script setting p
    constructor
    · intro why q hprogram hwhy
      rw [Run.program_apply] at hprogram
      split at hprogram
      · cases hprogram
      · rename_i hcode
        rw [hcode] at hsafe
        cases hsafe
      · rename_i hcode
        rw [hcode] at hsafe
        cases hprogram
        exact hsafe hwhy
    · intro stack q hcode
      rw [hcode] at hsafe
      exact hsafe

end Tabletop
