import Tabletop.Proofs.Evaluator.Atomicity

/-!
# What an answer tells about its run

An evaluation that succeeds is a run that gives a value of the type that is demanded.  The trace and the
flag are those of the run, the roller goes on from where the run has left it, and what waits to be written
is written.
-/

namespace Tabletop

variable {ρ γ : Type} [Roller ρ] [Context γ]

/-- The evaluation that a request asks for.  The operations of an evaluator give this, or a part of it as
a text. -/
def Request.evaluation (ev : Evaluator ρ) (context : γ) (request : Request) : Answer ρ γ Evaluation :=
  ev.runRead request.program? context request.bigFail request.expected

namespace Evaluator

/-- The answer that a run with the value `v` and the progress `q` leads to. -/
def settled (context : γ) (v : Value) (q : Progress ρ) : Answer ρ γ Evaluation :=
  { result := .ok { value := v, trace := q.trace, bigFail := q.bigFail }
    roller := q.roller
    context := q.writes.commit context }

variable {ev : Evaluator ρ} {context : γ} {bigFail : Bool} {expected : Option ValueType}
  {program : Program}

theorem run_of_ok {v : Value} {q : Progress ρ}
    (h : Run.program program (ev.setting context bigFail) { roller := ev.roller } = .ok v q)
    (htype : ∀ type ∈ expected, v.type = type) :
    ev.run program context bigFail expected = settled context v q := by
  unfold run perform
  rw [h]
  cases expected with
  | none => rfl
  | some type => exact if_pos (htype type rfl)

theorem run_of_error {why : RunError} {q : Progress ρ}
    (h : Run.program program (ev.setting context bigFail) { roller := ev.roller } = .error why q) :
    ev.run program context bigFail expected =
      { result := .error (.run why), roller := q.roller, context } := by
  unfold run perform
  rw [h]

/-- A value that is not of the type that is demanded. -/
theorem run_of_type_ne {v : Value} {q : Progress ρ} {type : ValueType}
    (h : Run.program program (ev.setting context bigFail) { roller := ev.roller } = .ok v q)
    (htype : v.type ≠ type) :
    ev.run program context bigFail (some type) =
      { result := .error (.wrongType type v.type), roller := q.roller, context } := by
  unfold run perform
  rw [h]
  exact if_neg htype

/-- Behind an evaluation that succeeds stands a run that does. -/
theorem run_ok {e : Evaluation} (h : (ev.run program context bigFail expected).result = .ok e) :
    ∃ q, Run.program program (ev.setting context bigFail) { roller := ev.roller } = .ok e.value q ∧
      (∀ type ∈ expected, e.value.type = type) ∧ e.trace = q.trace ∧ e.bigFail = q.bigFail := by
  cases hrun : Run.program program (ev.setting context bigFail) { roller := ev.roller } with
  | error why q =>
    rw [run_of_error hrun] at h
    cases h
  | ok v q =>
    by_cases htype : ∀ type ∈ expected, v.type = type
    · rw [run_of_ok hrun htype] at h
      cases h
      exact ⟨q, rfl, htype, rfl, rfl⟩
    · simp only [Classical.not_forall] at htype
      obtain ⟨type, rfl, hne⟩ := htype
      rw [run_of_type_ne hrun hne] at h
      cases h

/-- What is read from a source text is run. -/
theorem runRead_ofSource {source : String} {script : Script} (h : Script.ofSource source = .ok script)
    (ev : Evaluator ρ) (context : γ) (bigFail : Bool) (expected : Option ValueType) :
    ev.runRead (Program.ofSource source) context bigFail expected =
      ev.run script.compile context bigFail expected := by
  rw [Program.ofSource, h]
  rfl

end Evaluator

namespace Request

variable {ev : Evaluator ρ} {context : γ} {request : Request} {program : Program}

theorem evaluation_eq_run (h : request.program? = .ok program) :
    request.evaluation ev context =
      ev.run program context request.bigFail request.expected := by
  rw [evaluation, h]
  rfl

/-- Behind a request that succeeds stands a run of its program that does. -/
theorem evaluation_ok {e : Evaluation} (h : (request.evaluation ev context).result = .ok e) :
    ∃ program q, request.program? = .ok program ∧
      Run.program program (ev.setting context request.bigFail) { roller := ev.roller } =
        .ok e.value q ∧
      (∀ type ∈ request.expected, e.value.type = type) ∧ e.trace = q.trace ∧
      e.bigFail = q.bigFail ∧ request.evaluation ev context = Evaluator.settled context e.value q := by
  cases hprogram : request.program? with
  | error why =>
    rw [evaluation, hprogram] at h
    cases h
  | ok program =>
    rw [evaluation_eq_run hprogram] at h ⊢
    obtain ⟨q, hrun, htype, htrace, hflag⟩ := Evaluator.run_ok h
    exact ⟨program, q, rfl, hrun, htype, htrace, hflag, Evaluator.run_of_ok hrun htype⟩

end Request
end Tabletop
