import Tabletop.Proofs.Evaluator.Answers
import Tabletop.Proofs.Program.Meaning
import Tabletop.Proofs.Run.Dice

/-!
# The trace records the dice

Those at the table see the dice of an evaluation in its trace only.  The trace leaves none of them out and
makes none up: an evaluator whose roller remembers every die it throws gives the same answer, and what the
roller remembers is what the trace shows.
-/

namespace Tabletop

/-- The evaluator with a roller that remembers what it throws. -/
def Evaluator.observed {ρ : Type} (ev : Evaluator ρ) : Evaluator (Observed ρ) :=
  { roller := { roller := ev.roller }, config := ev.config, rule := ev.rule }

/-- The trace of an evaluation is a faithful record of its dice.  A roller that remembers what it throws
makes no difference to the answer, and in the end it remembers exactly the dice that the roll steps show,
in the order in which they show them.  Each roll step has as many faces as its term has dice, of which
those are dropped that the modifier drops, and its total is the exact sum of the others. -/
theorem Request.trace_records_dice {ρ γ : Type} [Roller ρ] [Context γ] (ev : Evaluator ρ) (context : γ)
    (request : Request) {e : Evaluation} (hhonest : Roller.Honest ev.roller)
    (he : (request.evaluation ev context).result = .ok e) :
    ∃ thrown,
      request.evaluation ev.observed context =
        { result := .ok e
          roller := { roller := (request.evaluation ev context).roller, thrown }
          context := (request.evaluation ev context).context } ∧
      e.trace.faces.map Face.value = DiceTerm.values thrown ∧
      ∀ term faces total, .roll term faces total ∈ e.trace.steps → term.Records faces total := by
  obtain ⟨program, p, hprogram, hp, htype, htrace, hflag, hanswer⟩ := evaluation_ok he
  obtain ⟨q, hq, rfl⟩ := Run.program_observed hp
  have htracks : Run.TracksDice q := by
    have hstart : Run.TracksDice { roller := ({ roller := ev.roller } : Observed ρ) } :=
      ⟨hhonest, rfl, Trace.allRolls_empty _⟩
    exact Run.keeps_of_program_ok hq hstart fun _ _ h => h.tracksDice
  have hobserved : request.evaluation ev.observed context = Evaluator.settled context e.value q := by
    rw [evaluation_eq_run hprogram]
    exact Evaluator.run_of_ok hq htype
  refine ⟨q.roller.thrown, ?_, htrace ▸ htracks.faces, htrace ▸ htracks.records⟩
  have heq : e = { value := e.value, trace := q.trace, bigFail := q.bigFail } := by
    change e.trace = q.trace at htrace
    change e.bigFail = q.bigFail at hflag
    rw [← htrace, ← hflag]
  rw [hobserved, hanswer, heq]
  rfl

/-- Four dice are thrown, one of which is dropped, and then two more. -/
theorem Request.trace_records_dice_stepper :
    let ev : Evaluator Stepper := { roller := { value := 1, step := 2 } }
    let best : DiceTerm :=
      { count := { val := 4 }, sides := .poly { val := 6 }, modifier := some (.keep (.highest 3)) }
    let pair : DiceTerm := { count := { val := 2 }, sides := .percentile }
    let request := Request.program ⟨[.roll best, .roll pair, .binary (.arithmetic .add)]⟩ true
    Roller.Honest ev.roller ∧
      ∃ e thrown,
        (request.evaluation ev NoVariables.mk).result = .ok e ∧ e.value = .number 29 ∧
        (request.evaluation ev.observed NoVariables.mk).roller.thrown = thrown ∧
        e.trace.faces.map Face.value = DiceTerm.values thrown ∧
        ∀ term faces total, .roll term faces total ∈ e.trace.steps → term.Records faces total := by
  intro ev best pair request
  have hhonest : Roller.Honest ev.roller := Stepper.honest ev.roller
  -- the last of the four faces is the lower one of two that are equal
  have hranking : (Selector.highest 3).ranking [1, 3, 5, 1] = [2, 1, 0, 3] := by
    simp [Selector.ranking, Selector.ranks, List.mergeSort, List.zipIdx]
  have hdropped : (Modifier.keep (.highest 3)).dropped [1, 3, 5, 1] = [false, false, false, true] := by
    rw [Modifier.dropped, Modifier.selector, Selector.picked, hranking]
    rfl
  have hthrown : (Roller.rollMany 4 best.sides.faces ev.roller).1 = [1, 3, 5, 1] := by decide
  let faces : List Face :=
    [{ value := 1 }, { value := 3 }, { value := 5 }, { value := 1, dropped := true }]
  have hfaces : best.facesFrom (some .maxFace) ev.roller = faces := by
    rw [DiceTerm.facesFrom, hthrown]
    show (List.zip [(1 : Int), 3, 5, 1] ((Modifier.keep (.highest 3)).dropped [1, 3, 5, 1])).map _ = _
    rw [hdropped]
    rfl
  let q : Progress Stepper :=
    { roller := { value := 9, step := 2 }, rolled := 4
      trace := { log := #[.roll best faces 9] } }
  have hbest : Run.rollDice best (ev.setting NoVariables.mk true) { roller := ev.roller } =
      .ok (.number 9) q := Run.rollDice_of_faces (by decide) hfaces rfl rfl
  have hpair : Run.rollDice pair (ev.setting NoVariables.mk true) q = .ok (.number 20) _ :=
    Run.rollDice_of_faces (by decide) (show _ = [{ value := 9 }, { value := 11 }] by decide) rfl rfl
  have hrun : ∃ r, Run.program ⟨[.roll best, .roll pair, .binary (.arithmetic .add)]⟩
      (ev.setting NoVariables.mk true) { roller := ev.roller } = .ok (.number 29) r := by
    rw [Run.program_apply, Run.code_roll hbest, Run.code_roll hpair]
    exact ⟨_, rfl⟩
  have hresult :
      (request.evaluation ev NoVariables.mk).result.map Evaluation.value = .ok (.number 29) := by
    obtain ⟨r, hrun⟩ := hrun
    have hany : ∀ type ∈ (none : Option ValueType), (Value.number 29).type = type :=
      fun type htype => absurd htype (Option.not_mem_none type)
    show (ev.run _ _ true none).result.map _ = _
    rw [Evaluator.run_of_ok hrun hany]
    rfl
  cases he : (request.evaluation ev NoVariables.mk).result with
  | error why =>
    rw [he] at hresult
    cases hresult
  | ok e =>
    rw [he] at hresult
    obtain ⟨thrown, hobserved, hfaces, hrecords⟩ :=
      trace_records_dice ev NoVariables.mk request hhonest he
    exact ⟨hhonest, e, thrown, rfl, Except.ok.inj hresult, by rw [hobserved], hfaces, hrecords⟩

end Tabletop
