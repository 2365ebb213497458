import Tabletop.Proofs.Run.Effect
import Tabletop.Run.Machine

/-!
# Two runs in lockstep

A program is run twice, by settings or with rollers that differ, and the two runs are compared
instruction by instruction.  A relation says what the progress of the one has to do with the progress of
the other.  If every effect has the same result in both runs and keeps the relation, `Lockstep`, then so
does every program, `Lockstep.program`: both runs give the same value or stop with the same error.

Two runs may be in lockstep for some dice terms only.  What they do apart from throwing dice is
`LockstepApart`, and the dice terms of a program are then its own concern.
-/

namespace Tabletop.Run

variable {ρ σ α β : Type}

/-- Two results are the same value or the same error, and the progress left behind is related. -/
inductive Agree (R : Progress ρ → Progress σ → Prop) :
    EStateM.Result RunError (Progress ρ) α → EStateM.Result RunError (Progress σ) α → Prop
  | ok {a p q} (h : R p q) : Agree R (.ok a p) (.ok a q)
  | error {why p q} (h : R p q) : Agree R (.error why p) (.error why q)

namespace Agree

variable {R : Progress ρ → Progress σ → Prop} {setting setting' : Setting} {p : Progress ρ}
  {q : Progress σ}

/-- Two results that agree are both values or both errors. -/
theorem elim {x : EStateM.Result RunError (Progress ρ) α} {y : EStateM.Result RunError (Progress σ) α}
    (h : Agree R x y) :
    (∃ a p q, x = .ok a p ∧ y = .ok a q ∧ R p q) ∨
      ∃ why p q, x = .error why p ∧ y = .error why q ∧ R p q := by
  cases h with
  | ok h => exact .inl ⟨_, _, _, rfl, rfl, h⟩
  | error h => exact .inr ⟨_, _, _, rfl, rfl, h⟩

theorem bind {x : Run ρ α} {y : Run σ α} {f : α → Run ρ β} {g : α → Run σ β}
    (h : Agree R (x setting p) (y setting' q))
    (hrest : ∀ a p q, R p q → Agree R (f a setting p) (g a setting' q)) :
    Agree R ((x >>= f) setting p) ((y >>= g) setting' q) := by
  rw [bind_apply, bind_apply]
  rcases h.elim with ⟨a, p, q, hx, hy, hpq⟩ | ⟨why, p, q, hx, hy, hpq⟩ <;> rw [hx, hy]
  · exact hrest a p q hpq
  · exact .error hpq

/-- An operator asks nothing of a run but that its step can be added to the trace. -/
theorem unary (op : UnaryOperator) (v : Value) (hpq : R p q)
    (hlog : ∀ r, R { p with trace := p.trace.push (.unary op v r) }
      { q with trace := q.trace.push (.unary op v r) }) :
    Agree R (Run.unary op v setting p) (Run.unary op v setting' q) := by
  rw [unary_apply, unary_apply]
  cases op.apply v with
  | error why => exact .error hpq
  | ok r => exact .ok (hlog r)

theorem binary (op : BinaryOperator) (l r : Value) (hpq : R p q)
    (hlog : ∀ v, R { p with trace := p.trace.push (.binary l op r v) }
      { q with trace := q.trace.push (.binary l op r v) }) :
    Agree R (Run.binary op l r setting p) (Run.binary op l r setting' q) := by
  rw [binary_apply, binary_apply]
  cases op.apply l r with
  | error why => exact .error hpq
  | ok v => exact .ok (hlog v)

/-- A variable is the same in both runs if both see the same value under its name. -/
theorem load (name : String) (hpq : R p q)
    (hsees : (p.writes.get? name).or (setting.lookup name) =
      (q.writes.get? name).or (setting'.lookup name))
    (hlog : ∀ v, R { p with trace := p.trace.push (.load name v) }
      { q with trace := q.trace.push (.load name v) }) :
    Agree R (Run.load name setting p) (Run.load name setting' q) := by
  rw [load_apply, load_apply, hsees]
  cases (q.writes.get? name).or (setting'.lookup name) with
  | none => exact .error hpq
  | some v => exact .ok (hlog v)

theorem jumpTo (hpq : R p q) (here target : Nat) (stack : List Value) :
    Agree R ((Run.jumpTo here target stack : Run ρ Outcome) setting p)
      ((Run.jumpTo here target stack : Run σ Outcome) setting' q) := by
  unfold Run.jumpTo
  split
  · exact .error hpq
  · exact .ok hpq

/-- An effect whose value goes on top of the stack. -/
theorem put {x : Run ρ Value} {y : Run σ Value} (h : Agree R (x setting p) (y setting' q))
    (stack : List Value) :
    Agree R ((do return ((← x) :: stack, 0) : Run ρ Outcome) setting p)
      ((do return ((← y) :: stack, 0) : Run σ Outcome) setting' q) :=
  h.bind fun _ _ _ hpq => .ok hpq

end Agree

variable [Roller ρ] [Roller σ]

/-- A roll has the same result in both runs if the same dice are within the limits and their faces add up
to the same total. -/
theorem Agree.rollDice {R : Progress ρ → Progress σ → Prop} {setting setting' : Setting}
    {p : Progress ρ} {q : Progress σ} (term : DiceTerm)
    (hlimit : setting.maxRolls.filter (· < p.rolled + term.count.val) =
      setting'.maxRolls.filter (· < q.rolled + term.count.val))
    (htotal : Face.total? (term.facesFrom setting.rule p.roller) =
      Face.total? (term.facesFrom setting'.rule q.roller))
    (hempty : (term.facesFrom setting.rule p.roller).isEmpty =
      (term.facesFrom setting'.rule q.roller).isEmpty)
    (hcounted : R { p with rolled := p.rolled + term.count.val }
      { q with rolled := q.rolled + term.count.val })
    (hthrown : R (thrown term setting p) (thrown term setting' q))
    (hlog : ∀ total,
      R { thrown term setting p with
          trace := p.trace.push (.roll term (term.facesFrom setting.rule p.roller) total) }
        { thrown term setting' q with
          trace := q.trace.push (.roll term (term.facesFrom setting'.rule q.roller) total) }) :
    Agree R (Run.rollDice term setting p) (Run.rollDice term setting' q) := by
  rw [rollDice_apply, rollDice_apply, hlimit, htotal, hempty]
  cases setting'.maxRolls.filter (· < q.rolled + term.count.val) with
  | some limit => exact .error hcounted
  | none =>
    cases Face.total? (term.facesFrom setting'.rule q.roller) with
    | none => exact .error hthrown
    | some total =>
      cases (term.facesFrom setting'.rule q.roller).isEmpty with
      | true => exact .error hthrown
      | false => exact .ok (hlog total)

/-- Every effect apart from throwing dice has the same result in both runs, and leaves progress that is
related again. -/
structure LockstepApart (R : Progress ρ → Progress σ → Prop) (setting setting' : Setting) : Prop where
  load : ∀ name p q, R p q → Agree R (load name setting p) (load name setting' q)
  store : ∀ name v p q, R p q → Agree R (store name v setting p) (store name v setting' q)
  unary : ∀ op v p q, R p q → Agree R (unary op v setting p) (unary op v setting' q)
  binary : ∀ op l r p q, R p q → Agree R (binary op l r setting p) (binary op l r setting' q)

/-- Every effect has the same result in both runs, and leaves progress that is related again. -/
structure Lockstep (R : Progress ρ → Progress σ → Prop) (setting setting' : Setting) : Prop extends
    LockstepApart R setting setting' where
  rollDice : ∀ term p q, R p q → Agree R (rollDice term setting p) (rollDice term setting' q)

namespace LockstepApart

variable {R : Progress ρ → Progress σ → Prop} {setting setting' : Setting} {p : Progress ρ}
  {q : Progress σ}

theorem step (h : LockstepApart R setting setting') (hpq : R p q) (here : Nat) (i : Instruction)
    (stack : List Value)
    (hroll : ∀ term, i = .roll term → ∀ p q, R p q →
      Agree R (rollDice term setting p) (rollDice term setting' q)) :
    Agree R (Run.step here i stack setting p) (Run.step here i stack setting' q) := by
  cases i with
  | push v => exact .ok hpq
  | roll term => exact Agree.put (hroll term rfl p q hpq) stack
  | load name => exact Agree.put (h.load name p q hpq) stack
  | store name =>
    cases stack with
    | nil => exact .error hpq
    | cons v stack => exact (h.store name v p q hpq).bind fun _ _ _ hpq => .ok hpq
  | unary op =>
    cases stack with
    | nil => exact .error hpq
    | cons v stack => exact Agree.put (h.unary op v p q hpq) stack
  | binary op =>
    rcases stack with _ | ⟨r, _ | ⟨l, stack⟩⟩
    · exact .error hpq
    · exact .error hpq
    · exact Agree.put (h.binary op l r p q hpq) stack
  | concat n =>
    rw [Run.step, Run.step]
    split
    · exact .error hpq
    · exact .ok hpq
  | truthy =>
    cases stack with
    | nil => exact .error hpq
    | cons v stack => exact .ok hpq
  | jump target => exact Agree.jumpTo hpq here target stack
  | jumpIf target =>
    cases stack with
    | nil => exact .error hpq
    | cons v stack =>
      rw [Run.step, Run.step]
      split
      · exact Agree.jumpTo hpq here target stack
      · exact .ok hpq
  | jumpUnless target =>
    cases stack with
    | nil => exact .error hpq
    | cons v stack =>
      rw [Run.step, Run.step]
      split
      · exact .ok hpq
      · exact Agree.jumpTo hpq here target stack
  | pop =>
    cases stack with
    | nil => exact .error hpq
    | cons v stack => exact .ok hpq

/-- The induction is on the code that is left. -/
theorem code (h : LockstepApart R setting setting') (hpq : R p q) (here skip : Nat)
    (rest : List Instruction) (stack : List Value)
    (hroll : ∀ term, .roll term ∈ rest → ∀ p q, R p q →
      Agree R (rollDice term setting p) (rollDice term setting' q)) :
    Agree R (Run.code here skip rest stack setting p) (Run.code here skip rest stack setting' q) := by
  induction rest generalizing here skip stack p q with
  | nil => exact .ok hpq
  | cons i rest ih =>
    have hrest := fun term hterm => hroll term (List.mem_cons_of_mem i hterm)
    cases skip with
    | succ skip =>
      rw [Run.code, Run.code]
      exact ih hpq (here + 1) skip stack hrest
    | zero =>
      rw [Run.code, Run.code]
      have hfirst := h.step hpq here i stack fun term hi => hroll term (hi ▸ List.mem_cons_self)
      exact hfirst.bind fun after _ _ hpq => ih hpq (here + 1) after.2 after.1 hrest

/-- A program has the same result in both runs if its dice terms have. -/
theorem program (h : LockstepApart R setting setting') (hpq : R p q) (program : Program)
    (hroll : ∀ term, .roll term ∈ program.code → ∀ p q, R p q →
      Agree R (rollDice term setting p) (rollDice term setting' q)) :
    Agree R (Run.program program setting p) (Run.program program setting' q) := by
  refine (h.code hpq 0 0 program.code [] hroll).bind fun stack _ _ hpq => ?_
  cases stack with
  | nil => exact .error hpq
  | cons v stack => exact .ok hpq

end LockstepApart

/-- Where the effects are in lockstep, every program has the same result in both runs. -/
theorem Lockstep.program {R : Progress ρ → Progress σ → Prop} {setting setting' : Setting}
    {p : Progress ρ} {q : Progress σ} (h : Lockstep R setting setting') (hpq : R p q)
    (program : Program) :
    Agree R (Run.program program setting p) (Run.program program setting' q) :=
  h.toLockstepApart.program hpq program fun term _ => h.rollDice term

end Tabletop.Run
