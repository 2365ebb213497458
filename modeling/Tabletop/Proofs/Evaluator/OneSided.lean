import Mathlib.Data.List.Basic
import Tabletop.Proofs.Evaluator.Answers
import Tabletop.Proofs.Random.Draws
import Tabletop.Proofs.Run.Lockstep

/-!
# Dice with one side

A die with one side shows a one, whatever random word is drawn for it.  A program that throws no other dice
does the same with any source of words: two runs of it with rollers that have nothing to do with each other
are in lockstep, and differ in the rollers that they leave, `Run.Alike`.
-/

namespace Tabletop

variable {ρ σ : Type}

/-! ## Throws -/

variable [WordSource ρ] [WordSource σ]

/-- Of one result there is only one to draw, and every word is accepted. -/
theorem Draw.first?_widest_one (s : ρ) :
    (Draw.widest 0x100000000 1).first? WordSource.nextNat s =
      (some 0, (WordSource.nextNat s).2) := by
  have hword : (WordSource.nextNat s).1 < 0x100000000 := (WordSource.next s).1.toNat_lt
  have haccepts : (Draw.widest 0x100000000 1).accepts (WordSource.nextNat s).1 := by
    rw [accepts, decide_eq_true_iff]
    show _ * 1 % 0x100000000 ≤ 0x100000000 - 1 - 0x100000000 % 1
    omega
  have hresult : (Draw.widest 0x100000000 1).result (WordSource.nextNat s).1 = 0 := by
    simp only [result, widest]
    omega
  rw [first?, search_of_accepts haccepts, hresult]

theorem throwMany_of_one {sides : Quantity} (hsides : sides.val = 1) (count : Nat) (s : ρ) :
    (throwMany count sides s).1 = List.replicate count 1 := by
  induction count generalizing s with
  | zero => rfl
  | succ count ih =>
    rw [throwMany, hsides, Draw.first?_widest_one]
    exact congrArg (List.cons 1) (ih _)

/-- A term shows the same faces with any roller if its dice have one side. -/
theorem DiceTerm.facesFrom_of_one {term : DiceTerm} (hsides : term.sides.faces.val = 1)
    (rule : Option BigFailRule) (roller : ρ) (roller' : σ) :
    term.facesFrom rule roller = term.facesFrom rule roller' := by
  have hthrown : (Roller.rollMany term.count.val term.sides.faces roller).1 =
      (Roller.rollMany term.count.val term.sides.faces roller').1 :=
    (throwMany_of_one hsides _ _).trans (throwMany_of_one hsides _ _).symm
  rw [facesFrom, facesFrom, hthrown]

/-! ## Programs -/

/-- An instruction throws no die with more than one side. -/
def Instruction.isOneSided : Instruction → Bool
  | roll term => term.sides.faces.val == 1
  | _ => true

/-- A program throws no die with more than one side. -/
def Program.isOneSided (program : Program) : Bool :=
  program.code.all Instruction.isOneSided

theorem Program.faces_eq_one {program : Program} (h : program.isOneSided) {term : DiceTerm}
    (hterm : .roll term ∈ program.code) : term.sides.faces.val = 1 :=
  eq_of_beq (List.all_eq_true.1 h _ hterm)

namespace Run

omit [WordSource ρ] [WordSource σ]

/-- Two runs have come equally far, apart from their rollers. -/
structure Alike (p : Progress ρ) (q : Progress σ) : Prop where
  rolled : p.rolled = q.rolled
  writes : p.writes = q.writes
  trace : p.trace = q.trace
  bigFail : p.bigFail = q.bigFail

theorem Alike.push {p : Progress ρ} {q : Progress σ} (h : Alike p q) (step : Step) :
    Alike { p with trace := p.trace.push step } { q with trace := q.trace.push step } :=
  { h with trace := by rw [h.trace] }

/-- Apart from throwing dice, a run does not use its roller. -/
theorem lockstepApart_alike (setting : Setting) :
    LockstepApart (Alike : Progress ρ → Progress σ → Prop) setting setting where
  load name p q hpq := Agree.load name hpq (by rw [hpq.writes]) fun _ => hpq.push _
  store name v p q hpq := by
    have hstored : Alike { p with writes := p.writes.set name v }
        { q with writes := q.writes.set name v } :=
      { hpq with writes := by rw [hpq.writes] }
    exact .ok (hstored.push (.store name v))
  unary op v p q hpq := Agree.unary op v hpq fun _ => hpq.push _
  binary op l r p q hpq := Agree.binary op l r hpq fun _ => hpq.push _

variable [WordSource ρ] [WordSource σ]

theorem rollDice_alike {term : DiceTerm} (hsides : term.sides.faces.val = 1) (setting : Setting)
    {p : Progress ρ} {q : Progress σ} (hpq : Alike p q) :
    Agree Alike (rollDice term setting p) (rollDice term setting q) := by
  have hfaces := DiceTerm.facesFrom_of_one hsides setting.rule p.roller q.roller
  have hcounted : p.rolled + term.count.val = q.rolled + term.count.val := by rw [hpq.rolled]
  have hthrown : Alike (thrown term setting p) (thrown term setting q) :=
    { rolled := hcounted
      writes := hpq.writes
      trace := hpq.trace
      bigFail := by rw [thrown, thrown, hpq.bigFail, hfaces] }
  refine Agree.rollDice term ?_ ?_ ?_ { hpq with rolled := hcounted } hthrown fun total => ?_
  · rw [hcounted]
  · rw [hfaces]
  · rw [hfaces]
  · rw [hfaces]
    exact hthrown.push _

/-- A program without dice that have more than one side does the same with any two rollers. -/
theorem program_alike {program : Program} (h : program.isOneSided) (setting : Setting) (roller : ρ)
    (roller' : σ) :
    Agree Alike (Run.program program setting { roller })
      (Run.program program setting { roller := roller' }) := by
  have hstart : Alike ({ roller } : Progress ρ) ({ roller := roller' } : Progress σ) :=
    ⟨rfl, rfl, rfl, rfl⟩
  exact (lockstepApart_alike setting).program hstart program fun _ hterm _ _ hpq =>
    rollDice_alike (Program.faces_eq_one h hterm) setting hpq

end Run

/-! ## Evaluations -/

/-- A request throws no die with more than one side. -/
def Request.isOneSided (request : Request) : Bool :=
  match request.program? with
  | .ok p => p.isOneSided
  | .error _ => true

/-- The evaluator with another roller. -/
def Evaluator.withRoller (ev : Evaluator ρ) (roller : σ) : Evaluator σ :=
  { roller, config := ev.config, rule := ev.rule }

section

variable {γ : Type} [Context γ]

theorem Evaluator.run_withRoller {program : Program} (h : program.isOneSided) (ev : Evaluator ρ)
    (roller : σ) (context : γ) (bigFail : Bool) (expected : Option ValueType) :
    ((ev.withRoller roller).run program context bigFail expected).result =
        (ev.run program context bigFail expected).result ∧
      ((ev.withRoller roller).run program context bigFail expected).context =
        (ev.run program context bigFail expected).context := by
  have hagree := Run.program_alike h (ev.setting context bigFail) ev.roller roller
  have hsetting : (ev.withRoller roller).setting context bigFail = ev.setting context bigFail := rfl
  have hroller : (ev.withRoller roller).roller = roller := rfl
  rw [run, run, perform, perform, hsetting, hroller]
  rcases hagree.elim with ⟨v, p, q, hp, hq, hpq⟩ | ⟨why, p, q, hp, hq, -⟩ <;> rw [hp, hq]
  · simp only [hpq.writes, hpq.trace, hpq.bigFail]
    cases expected with
    | none => exact ⟨rfl, rfl⟩
    | some type =>
      dsimp only
      split <;> exact ⟨rfl, rfl⟩
  · exact ⟨rfl, rfl⟩

/-- What a request gives and what it leaves of its context do not depend on the roller if its dice have one
side. -/
theorem Request.evaluation_withRoller {request : Request} (h : request.isOneSided) (ev : Evaluator ρ)
    (roller : σ) (context : γ) :
    (request.evaluation (ev.withRoller roller) context).result =
        (request.evaluation ev context).result ∧
      (request.evaluation (ev.withRoller roller) context).context =
        (request.evaluation ev context).context := by
  cases hprogram : request.program? with
  | error why =>
    rw [evaluation, evaluation, hprogram]
    exact ⟨rfl, rfl⟩
  | ok program =>
    rw [isOneSided, hprogram] at h
    rw [evaluation_eq_run hprogram, evaluation_eq_run hprogram]
    exact ev.run_withRoller h roller context request.bigFail request.expected

end

end Tabletop
