import Tabletop.Proofs.Program.Flow
import Tabletop.Proofs.Run.Effect

/-!
# Executions

The machine goes through a program by recursion on what is left of it.  Here the same is said step by
step, with the instruction pointer in the open: `Advances` and `Stops` are all that one instruction can
do, and `Reaches` collects the instructions that have been carried out, each with the stack that it found.

`reaches_of_code_ok` and `reaches_of_code_error` tie the two together: a run that ends has reached the
end of the program, and a run that stops has reached the instruction that stops it.  What holds of every
configuration that is reached is then proved by induction on `Reaches`, one instruction at a time.
-/

namespace Tabletop.Run

variable {ρ : Type} [Roller ρ]

/-- With `stack` on the stack and the progress `p`, the instruction at `here` is carried out, and the
machine goes on at the next place with the next stack and progress. -/
inductive Advances (setting : Setting) (here : Nat) :
    Instruction → List Value → Progress ρ → Nat → List Value → Progress ρ → Prop
  | push {v stack p} : Advances setting here (.push v) stack p (here + 1) (v :: stack) p
  | roll {term stack p v q} (h : rollDice term setting p = .ok v q) :
    Advances setting here (.roll term) stack p (here + 1) (v :: stack) q
  | load {name stack p v q} (h : load name setting p = .ok v q) :
    Advances setting here (.load name) stack p (here + 1) (v :: stack) q
  | store {name v stack p} :
    Advances setting here (.store name) (v :: stack) p (here + 1) (v :: stack)
      { p with writes := p.writes.set name v, trace := p.trace.push (.store name v) }
  | unary {op v stack p r q} (h : unary op v setting p = .ok r q) :
    Advances setting here (.unary op) (v :: stack) p (here + 1) (r :: stack) q
  | binary {op r l stack p v q} (h : binary op l r setting p = .ok v q) :
    Advances setting here (.binary op) (r :: l :: stack) p (here + 1) (v :: stack) q
  | concat {n stack p} (h : n ≤ stack.length) :
    Advances setting here (.concat n) stack p (here + 1)
      (.string (String.join ((stack.take n).reverse.map Value.text)) :: stack.drop n) p
  | truthy {v stack p} :
    Advances setting here .truthy (v :: stack) p (here + 1) (.ofBool v.truthy :: stack) p
  | jump {target stack p} (h : here < target) :
    Advances setting here (.jump target) stack p target stack p
  | jumpIf {target v stack p} (h : here < target) (hv : v.truthy) :
    Advances setting here (.jumpIf target) (v :: stack) p target stack p
  | jumpIfNot {target v stack p} (hv : ¬v.truthy) :
    Advances setting here (.jumpIf target) (v :: stack) p (here + 1) stack p
  | jumpUnless {target v stack p} (h : here < target) (hv : ¬v.truthy) :
    Advances setting here (.jumpUnless target) (v :: stack) p target stack p
  | jumpUnlessNot {target v stack p} (hv : v.truthy) :
    Advances setting here (.jumpUnless target) (v :: stack) p (here + 1) stack p
  | pop {v stack p} : Advances setting here .pop (v :: stack) p (here + 1) stack p

/-- The instruction stops the run with an error, and leaves the progress `q` behind. -/
inductive Stops (setting : Setting) (here : Nat) :
    Instruction → List Value → Progress ρ → RunError → Progress ρ → Prop
  | roll {term stack p why q} (h : rollDice term setting p = .error why q) :
    Stops setting here (.roll term) stack p why q
  | load {name stack p why q} (h : load name setting p = .error why q) :
    Stops setting here (.load name) stack p why q
  | unary {op v stack p why q} (h : unary op v setting p = .error why q) :
    Stops setting here (.unary op) (v :: stack) p why q
  | binary {op r l stack p why q} (h : binary op l r setting p = .error why q) :
    Stops setting here (.binary op) (r :: l :: stack) p why q
  | underflow {i stack p} (h : stack.length < i.takes) :
    Stops setting here i stack p .stackUnderflow p
  | backward {i target stack p} (htarget : i.target? = some target) (h : target ≤ here) :
    Stops setting here i stack p (.backwardJump here target) p

/-! ## One instruction -/

/-- The result of an instruction is what the instruction can do. -/
def Explains (setting : Setting) (here : Nat) (i : Instruction) (stack : List Value)
    (p : Progress ρ) : EStateM.Result RunError (Progress ρ) Outcome → Prop
  | .ok after q => Advances setting here i stack p (here + 1 + after.2) after.1 q
  | .error why q => Stops setting here i stack p why q

section

variable {setting : Setting} {here : Nat} {i : Instruction} {stack rest : List Value}
  {p : Progress ρ}

/-- An effect whose value goes on top of the stack. -/
theorem explains_put {x : Run ρ Value}
    (hok : ∀ v q, x setting p = .ok v q →
      Advances setting here i stack p (here + 1) (v :: rest) q)
    (herror : ∀ why q, x setting p = .error why q → Stops setting here i stack p why q) :
    Explains setting here i stack p
      ((do return ((← x) :: rest, 0) : Run ρ Outcome) setting p) := by
  rw [bind_apply]
  cases hx : x setting p with
  | ok v q => exact hok v q hx
  | error why q => exact herror why q hx

/-- A jump that is taken. -/
theorem explains_jumpTo {target : Nat} (htarget : i.target? = some target)
    (hforward : here < target → Advances setting here i stack p target rest p) :
    Explains setting here i stack p ((jumpTo here target rest : Run ρ Outcome) setting p) := by
  rw [jumpTo]
  by_cases h : target < here + 1
  · rw [if_pos h]
    exact Stops.backward htarget (by omega)
  · rw [if_neg h]
    have hplace : here + 1 + (target - (here + 1)) = target := by omega
    have hadvances := hforward (by omega)
    rw [← hplace] at hadvances
    exact hadvances

/-- An instruction either advances or stops, as its definition says. -/
theorem explains_step (setting : Setting) (here : Nat) (i : Instruction) (stack : List Value)
    (p : Progress ρ) : Explains setting here i stack p (step here i stack setting p) := by
  cases i with
  | push v => exact Advances.push
  | roll term => exact explains_put (fun _ _ h => .roll h) (fun _ _ h => .roll h)
  | load name => exact explains_put (fun _ _ h => .load h) (fun _ _ h => .load h)
  | store name =>
    cases stack with
    | nil => exact Stops.underflow Nat.one_pos
    | cons v stack => exact Advances.store
  | unary op =>
    cases stack with
    | nil => exact Stops.underflow Nat.one_pos
    | cons v stack => exact explains_put (fun _ _ h => .unary h) (fun _ _ h => .unary h)
  | binary op =>
    rcases stack with _ | ⟨r, _ | ⟨l, stack⟩⟩
    · exact Stops.underflow Nat.two_pos
    · exact Stops.underflow Nat.one_lt_two
    · exact explains_put (fun _ _ h => .binary h) (fun _ _ h => .binary h)
  | concat n =>
    rw [step]
    by_cases h : stack.length < n
    · rw [if_pos h]
      exact Stops.underflow h
    · rw [if_neg h]
      exact Advances.concat (by omega)
  | truthy =>
    cases stack with
    | nil => exact Stops.underflow Nat.one_pos
    | cons v stack => exact Advances.truthy
  | jump target => exact explains_jumpTo rfl .jump
  | jumpIf target =>
    cases stack with
    | nil => exact Stops.underflow Nat.one_pos
    | cons v stack =>
      rw [step]
      by_cases hv : v.truthy
      · rw [if_pos hv]
        exact explains_jumpTo rfl fun h => .jumpIf h hv
      · rw [if_neg hv]
        exact Advances.jumpIfNot hv
  | jumpUnless target =>
    cases stack with
    | nil => exact Stops.underflow Nat.one_pos
    | cons v stack =>
      rw [step]
      by_cases hv : v.truthy
      · rw [if_pos hv]
        exact Advances.jumpUnlessNot hv
      · rw [if_neg hv]
        exact explains_jumpTo rfl fun h => .jumpUnless h hv
  | pop =>
    cases stack with
    | nil => exact Stops.underflow Nat.one_pos
    | cons v stack => exact Advances.pop

end

/-! ## Many instructions -/

/-- From the progress `p` and an empty stack, the machine has carried out the instructions `done`, each
of which found the stack beside it, and has come to a place with a stack and a progress. -/
inductive Reaches (setting : Setting) (code : List Instruction) (p : Progress ρ) :
    List (Instruction × List Value) → Nat → List Value → Progress ρ → Prop
  | start : Reaches setting code p [] 0 [] p
  | next {done here stack q i place stack' q'} (h : Reaches setting code p done here stack q)
    (hi : code[here]? = some i) (hstep : Advances setting here i stack q place stack' q') :
    Reaches setting code p (done ++ [(i, stack)]) place stack' q'

/-- How a run over the rest of the code ends, if it has come there by carrying out `done`. -/
def Ends (setting : Setting) (code : List Instruction) (p : Progress ρ) :
    EStateM.Result RunError (Progress ρ) (List Value) → Prop
  | .ok stack q => ∃ done place, Reaches setting code p done place stack q ∧ code.length ≤ place
  | .error why q => ∃ done here stack r i, Reaches setting code p done here stack r ∧
      code[here]? = some i ∧ Stops setting here i stack r why q

/-- The induction is on the code that is left. -/
theorem ends_code {setting : Setting} {before rest : List Instruction} {p q : Progress ρ}
    {done : List (Instruction × List Value)} {skip : Nat} {stack : List Value}
    (h : Reaches setting (before ++ rest) p done (before.length + skip) stack q) :
    Ends setting (before ++ rest) p (code before.length skip rest stack setting q) := by
  induction rest generalizing before done skip stack q with
  | nil =>
    rw [code]
    exact ⟨done, _, h, by simp⟩
  | cons i rest ih =>
    have hsplit : before ++ i :: rest = (before ++ [i]) ++ rest := by
      rw [List.append_assoc, List.singleton_append]
    have hlength : before.length + 1 = (before ++ [i]).length := by
      rw [List.length_append, List.length_singleton]
    cases skip with
    | succ skip =>
      rw [code, hlength]
      have hplace : before.length + (skip + 1) = (before ++ [i]).length + skip := by omega
      rw [hplace, hsplit] at h
      rw [hsplit]
      exact ih h
    | zero =>
      have hi : (before ++ i :: rest)[before.length]? = some i := by simp
      have hexplains := explains_step setting before.length i stack q
      rw [code, bind_apply]
      cases hstep : step before.length i stack setting q with
      | error why r =>
        rw [hstep] at hexplains
        exact ⟨done, _, stack, q, i, h, hi, hexplains⟩
      | ok after r =>
        rw [hstep] at hexplains
        have hnext := Reaches.next h hi hexplains
        rw [hlength, hsplit] at hnext
        rw [hsplit]
        show Ends _ _ p (code (before.length + 1) after.2 rest after.1 setting r)
        rw [hlength]
        exact ih hnext

theorem ends_of_code (setting : Setting) (instructions : List Instruction) (p : Progress ρ) :
    Ends setting instructions p (code 0 0 instructions [] setting p) := by
  have hstart : Reaches setting ([] ++ instructions) p [] (([] : List Instruction).length + 0) [] p :=
    .start
  exact ends_code hstart

/-- A run that ends has gone through the code to its end. -/
theorem reaches_of_code_ok {setting : Setting} {instructions : List Instruction} {p q : Progress ρ}
    {stack : List Value} (h : code 0 0 instructions [] setting p = .ok stack q) :
    ∃ done place, Reaches setting instructions p done place stack q ∧ instructions.length ≤ place := by
  have hends := ends_of_code setting instructions p
  rwa [h] at hends

/-- A run that stops has gone through the code to the instruction that stops it. -/
theorem reaches_of_code_error {setting : Setting} {instructions : List Instruction}
    {p q : Progress ρ} {why : RunError} (h : code 0 0 instructions [] setting p = .error why q) :
    ∃ done here stack r i, Reaches setting instructions p done here stack r ∧
      instructions[here]? = some i ∧ Stops setting here i stack r why q := by
  have hends := ends_of_code setting instructions p
  rwa [h] at hends

/-! ## Back to the machine -/

/-- What an instruction can do is the result of the instruction. -/
theorem Advances.step_eq {setting : Setting} {here place : Nat} {i : Instruction}
    {stack stack' : List Value} {p q : Progress ρ}
    (h : Advances setting here i stack p place stack' q) :
    here < place ∧ step here i stack setting p = .ok (stack', place - (here + 1)) q := by
  have hjump : ∀ {target : Nat} (rest : List Value), here < target →
      (jumpTo here target rest : Run ρ Outcome) setting p =
        .ok (rest, target - (here + 1)) p := by
    intro target rest hforward
    rw [jumpTo, if_neg (by omega)]
    rfl
  have hput : ∀ {x : Run ρ Value} {v : Value} {r : Progress ρ} (rest : List Value),
      x setting p = .ok v r →
      (do return ((← x) :: rest, 0) : Run ρ Outcome) setting p =
        .ok (v :: rest, here + 1 - (here + 1)) r := by
    intro x v r rest hx
    rw [bind_apply, hx, Nat.sub_self]
    rfl
  have hnext : ∀ (rest : List Value) (r : Progress ρ),
      (.ok (rest, here + 1 - (here + 1)) r : EStateM.Result RunError _ Outcome) =
        .ok (rest, 0) r := by
    intro rest r
    rw [Nat.sub_self]
  cases h with
  | roll h => exact ⟨by omega, hput _ h⟩
  | load h => exact ⟨by omega, hput _ h⟩
  | unary h => exact ⟨by omega, hput _ h⟩
  | binary h => exact ⟨by omega, hput _ h⟩
  | concat h =>
    refine ⟨by omega, ?_⟩
    rw [hnext, step, if_neg (by omega)]
    rfl
  | jump h => exact ⟨h, hjump _ h⟩
  | jumpIf h hv =>
    refine ⟨h, ?_⟩
    rw [step, if_pos hv]
    exact hjump _ h
  | jumpIfNot hv =>
    refine ⟨by omega, ?_⟩
    rw [hnext, step, if_neg hv]
    rfl
  | jumpUnless h hv =>
    refine ⟨h, ?_⟩
    rw [step, if_neg hv]
    exact hjump _ h
  | jumpUnlessNot hv =>
    refine ⟨by omega, ?_⟩
    rw [hnext, step, if_pos hv]
    rfl
  | push => exact ⟨by omega, (hnext _ _).symm⟩
  | store => exact ⟨by omega, (hnext _ _).symm⟩
  | truthy => exact ⟨by omega, (hnext _ _).symm⟩
  | pop => exact ⟨by omega, (hnext _ _).symm⟩

theorem code_skip (here skip : Nat) (rest : List Instruction) (stack : List Value) :
    (code here skip rest stack : Run ρ (List Value)) =
      code (here + skip) 0 (rest.drop skip) stack := by
  induction rest generalizing here skip with
  | nil => rw [List.drop_nil, code, code]
  | cons i rest ih =>
    cases skip with
    | zero => rfl
    | succ skip =>
      rw [code, ih, List.drop_succ_cons, Nat.add_right_comm, Nat.add_assoc]

/-- The whole run is the run from any configuration that it reaches. -/
theorem Reaches.code_eq {setting : Setting} {instructions : List Instruction} {p q : Progress ρ}
    {done : List (Instruction × List Value)} {place : Nat} {stack : List Value}
    (h : Reaches setting instructions p done place stack q) :
    code 0 0 instructions [] setting p =
      code place 0 (instructions.drop place) stack setting q := by
  induction h with
  | start => rw [List.drop_zero]
  | @next done here stack q i place stack' q' _ hi hstep ih =>
    obtain ⟨hforward, hstep⟩ := hstep.step_eq
    have hplace : here + 1 + (place - (here + 1)) = place := by omega
    obtain ⟨hinside, rfl⟩ := List.getElem?_eq_some_iff.1 hi
    rw [ih, List.drop_eq_getElem_cons hinside, code, bind_apply, hstep]
    show code (here + 1) (place - (here + 1)) _ stack' setting q' = _
    rw [code_skip, List.drop_drop, hplace]

/-- A run that has come to the end of the code ends there. -/
theorem Reaches.code_ok {setting : Setting} {instructions : List Instruction} {p q : Progress ρ}
    {done : List (Instruction × List Value)} {place : Nat} {stack : List Value}
    (h : Reaches setting instructions p done place stack q) (hend : instructions.length ≤ place) :
    code 0 0 instructions [] setting p = .ok stack q := by
  rw [h.code_eq, List.drop_of_length_le hend]
  rfl

end Tabletop.Run
