import Tabletop.Proofs.Evaluator.Atomicity
import Tabletop.Proofs.Run.Limit

/-!
# The limit of an evaluator

An evaluator with a limit is compared with the same evaluator without one.  Evaluations agree unless
some roll exceeds the limit, and then the evaluation fails before that roll.  An evaluator carries
nothing but its roller from one evaluation to the next, so the rolls of one evaluation do not count in
another.

Which dice an evaluation has thrown is read off the roller that it leaves.  Nothing is assumed about
rollers, so this may be one that remembers every die.
-/

namespace Tabletop

open DiceTerm Roller

namespace Evaluator

variable {ρ γ : Type} [Roller ρ] [Context γ]

/-- The evaluator with another limit on rolls. -/
def withMaxRolls (ev : Evaluator ρ) (maxRolls : Option Nat) : Evaluator ρ :=
  { ev with config := { ev.config with maxRolls } }

/-- The evaluator after it has answered requests, each in a context of its own. -/
def after (ev : Evaluator ρ) : List (Request × γ) → Evaluator ρ
  | [] => ev
  | (request, context) :: earlier =>
    after { ev with roller := (request.answer ev context).roller } earlier

/-- Requests leave the limit as it is. -/
theorem config_after (ev : Evaluator ρ) (earlier : List (Request × γ)) :
    (ev.after earlier).config = ev.config := by
  induction earlier generalizing ev with
  | nil => rfl
  | cons request earlier ih => exact ih _

/-- Without a limit, the evaluation of a program comes to a roll instruction; the terms are those of the
roll instructions that it has come to, this one last. -/
def ReachesRoll (ev : Evaluator ρ) (program : Program) (context : γ) (bigFail : Bool)
    (terms : List DiceTerm) : Prop :=
  Run.ReachesRoll ((ev.withMaxRolls none).setting context bigFail) program.code
    { roller := ev.roller } terms

/-- What the limit does to the evaluation of a program. -/
structure ObeysLimit (ev : Evaluator ρ) (limit : Nat) (program : Program) (context : γ) (bigFail : Bool)
    (expected : Option ValueType) : Prop where
  /-- If the dice of the roll instructions that are reached without the limit are within it, at each of
  them, then the limit makes no difference. -/
  within : (∀ terms, ev.ReachesRoll program context bigFail terms → diceCount terms ≤ limit) →
    Run.program program (ev.setting context bigFail) { roller := ev.roller } =
        Run.program program ((ev.withMaxRolls none).setting context bigFail) { roller := ev.roller } ∧
      ev.run program context bigFail expected =
        (ev.withMaxRolls none).run program context bigFail expected
  /-- If not, the evaluation fails at the first roll instruction with which they exceed the limit.  It
  has thrown the dice of the roll instructions before this one and no others. -/
  exceeded : (¬∀ terms, ev.ReachesRoll program context bigFail terms → diceCount terms ≤ limit) →
    ∃ before term, ev.ReachesRoll program context bigFail (before ++ [term]) ∧
      diceCount before ≤ limit ∧ limit < diceCount (before ++ [term]) ∧
      ev.run program context bigFail expected =
        { result := .error (.run (.tooManyRolls limit))
          roller := throwAll before ev.roller
          context }
  /-- In any case no more dice are thrown than the limit allows. -/
  bounded : ∃ terms, diceCount terms ≤ limit ∧
    (ev.run program context bigFail expected).roller = throwAll terms ev.roller

/-- The roller of an answer is the one that the run leaves. -/
theorem roller_run (ev : Evaluator ρ) (program : Program) (context : γ) (bigFail : Bool)
    (expected : Option ValueType) :
    (ev.run program context bigFail expected).roller =
      (Run.left (Run.program program (ev.setting context bigFail) { roller := ev.roller })).roller := by
  rw [run, perform]
  cases Run.program program (ev.setting context bigFail) { roller := ev.roller } with
  | error why q => rfl
  | ok v q =>
    cases expected with
    | none => rfl
    | some type =>
      by_cases htype : v.type = type
      · simp only [if_pos htype]
        rfl
      · simp only [if_neg htype]
        rfl

/-- An evaluator that has a limit obeys it, since every run begins with no dice counted. -/
theorem obeysLimit_of_maxRolls {ev : Evaluator ρ} {limit : Nat} (h : ev.config.maxRolls = some limit)
    (program : Program) (context : γ) (bigFail : Bool) (expected : Option ValueType) :
    ev.ObeysLimit limit program context bigFail expected := by
  have hlimited : ev.setting context bigFail =
      (ev.setting context bigFail).withMaxRolls (some limit) := by
    rw [Setting.withMaxRolls, ← h]
    rfl
  have hunlimited : (ev.withMaxRolls none).setting context bigFail =
      (ev.setting context bigFail).withMaxRolls none := rfl
  have hreaches : ∀ terms, ev.ReachesRoll program context bigFail terms ↔
      Run.ReachesRoll ((ev.setting context bigFail).withMaxRolls none) program.code
        { roller := ev.roller } terms := fun _ => Iff.rfl
  constructor
  · intro hwithin
    simp only [hreaches] at hwithin
    have hrun : Run.program program (ev.setting context bigFail) { roller := ev.roller } =
        Run.program program ((ev.withMaxRolls none).setting context bigFail)
          { roller := ev.roller } := by
      rw [hlimited, hunlimited, Run.program_apply, Run.program_apply, Run.code_of_le rfl hwithin]
    refine ⟨hrun, ?_⟩
    unfold run perform
    rw [hrun]
    rfl
  · intro hexceeded
    simp only [Classical.not_forall, Nat.not_le, hreaches] at hexceeded
    obtain ⟨terms, hterms, hlt⟩ := hexceeded
    obtain ⟨before, term, r, hfirst, hle, hlt, hcode, hroller⟩ := Run.code_of_lt rfl hterms hlt
    refine ⟨before, term, hfirst, hle, hlt, ?_⟩
    have hrun : Run.program program (ev.setting context bigFail) { roller := ev.roller } =
        .error (.tooManyRolls limit) r := by
      rw [hlimited, Run.program_apply, hcode]
    unfold run perform
    rw [hrun, ← hroller]
  · rw [roller_run, Run.left_program]
    exact Run.exists_throwAll_of_code rfl h

/-- A limit on rolls makes no difference unless it is exceeded, and then the evaluation fails before the
roll that exceeds it.  Whatever the evaluator has answered before, only the rolls of the evaluation
itself count. -/
theorem after_obeysLimit (ev : Evaluator ρ) (limit : Nat) (earlier : List (Request × γ))
    (program : Program) (context : γ) (bigFail : Bool) (expected : Option ValueType) :
    ((ev.withMaxRolls (some limit)).after earlier).ObeysLimit limit program context bigFail expected := by
  refine obeysLimit_of_maxRolls ?_ program context bigFail expected
  rw [config_after]
  rfl

end Evaluator
end Tabletop
