import Tabletop.Proofs.Evaluator.Answers
import Tabletop.Proofs.Evaluator.Commit
import Tabletop.Proofs.Run.Steps

/-!
# The trace audits the data flow

Whoever has the trace of an evaluation and the variables as they were before it can check every value in
it.  A load step shows what the nearest earlier store step of its name has stored, or what the context
held if there is none; the result of an operator follows from the operands beside it; and the last store
step of a name shows what the context holds under that name afterwards.

The invariant of a run is `Run.TracksFlow`: what waits to be written under a name is what the last store
step of that name has stored.
-/

namespace Tabletop

/-- The value that a step stores under a name. -/
def Step.stored? (name : String) : Step → Option Value
  | .store other v => if other = name then some v else none
  | _ => none

/-- The value that the last store step of a name has stored. -/
def Step.lastStored? (steps : List Step) (name : String) : Option Value :=
  steps.reverse.findSome? (stored? name)

/-- What a step shows follows from itself, the steps `before` it and the variables of the context. -/
def Step.Audited (lookup : String → Option Value) (before : List Step) : Step → Prop
  | .load name v => (lastStored? before name).or (lookup name) = some v
  | .unary op v r => op.apply v = .ok r
  | .binary l op r v => op.apply l r = .ok v
  | .roll _ _ _ => True
  | .store _ _ => True

theorem Step.lastStored?_append_singleton (steps : List Step) (step : Step) (name : String) :
    lastStored? (steps ++ [step]) name = (step.stored? name).or (lastStored? steps name) := by
  rw [lastStored?, List.reverse_append, List.reverse_singleton, List.singleton_append,
    List.findSome?_cons]
  cases step.stored? name <;> rfl

/-- Every step of a list is audited against the steps before it. -/
def Step.AllAudited (lookup : String → Option Value) (steps : List Step) : Prop :=
  ∀ before step after, steps = before ++ step :: after → step.Audited lookup before

theorem Step.AllAudited.append_singleton {lookup : String → Option Value} {steps : List Step}
    (h : AllAudited lookup steps) {step : Step} (hstep : step.Audited lookup steps) :
    AllAudited lookup (steps ++ [step]) := by
  intro before other after hsplit
  rcases List.eq_nil_or_concat after with rfl | ⟨rest, last, rfl⟩
  · obtain ⟨rfl, hlast⟩ := List.append_inj' hsplit rfl
    cases hlast
    exact hstep
  · rw [List.concat_eq_append, ← List.cons_append, ← List.append_assoc] at hsplit
    exact h before other rest (List.append_inj' hsplit rfl).1

namespace Run

variable {ρ : Type}

/-- What waits is what was stored last, and every step so far is audited. -/
structure TracksFlow (lookup : String → Option Value) (p : Progress ρ) : Prop where
  stored : ∀ name, p.writes.get? name = Step.lastStored? p.trace.steps name
  audited : Step.AllAudited lookup p.trace.steps

/-- A step that stores nothing is added. -/
theorem TracksFlow.push {lookup : String → Option Value} {p : Progress ρ} (h : TracksFlow lookup p)
    (step : Step) (hstores : ∀ name, step.stored? name = none)
    (hstep : step.Audited lookup p.trace.steps) {roller : ρ} {rolled : Nat} {bigFail : Bool} :
    TracksFlow lookup { p with roller, rolled, bigFail, trace := p.trace.push step } where
  stored name := by
    rw [Trace.steps_push, Step.lastStored?_append_singleton, hstores name]
    exact h.stored name
  audited := by
    rw [Trace.steps_push]
    exact h.audited.append_singleton hstep

theorem TracksFlow.store {lookup : String → Option Value} {p : Progress ρ} (h : TracksFlow lookup p)
    (name : String) (v : Value) :
    TracksFlow lookup
      { p with writes := p.writes.set name v, trace := p.trace.push (.store name v) } where
  stored other := by
    rw [Trace.steps_push, Step.lastStored?_append_singleton, Writes.get?_set, Step.stored?, h.stored]
    by_cases hother : name = other
    · rw [if_pos hother, if_pos hother]
      rfl
    · rw [if_neg hother, if_neg hother]
      rfl
  audited := by
    rw [Trace.steps_push]
    exact h.audited.append_singleton trivial

theorem Proceeds.tracksFlow [Roller ρ] {setting : Setting} {p q : Progress ρ}
    (h : Proceeds setting p q) (hp : TracksFlow setting.lookup p) : TracksFlow setting.lookup q := by
  cases h with
  | silent => exact hp
  | roll _ _ => exact hp.push (.roll ..) (fun _ => rfl) trivial
  | load hv =>
    rw [hp.stored] at hv
    exact hp.push (.load ..) (fun _ => rfl) hv
  | store => exact hp.store _ _
  | unary hr => exact hp.push (.unary ..) (fun _ => rfl) hr
  | binary hv => exact hp.push (.binary ..) (fun _ => rfl) hv

end Run

/-- The trace of an evaluation audits its data flow.  Every load step shows the value of the nearest
earlier store step of its name or, if there is none, the value that the context had; every result of an
operator is what the operator makes of the operands in the trace.  A context that behaves as a map holds
afterwards what the last store step of each name shows, and else what it held before. -/
theorem Request.trace_audits_flow {ρ γ : Type} [Roller ρ] [Context γ] (ev : Evaluator ρ) (context : γ)
    (request : Request) {e : Evaluation} (he : (request.evaluation ev context).result = .ok e) :
    (∀ before step after, e.trace.steps = before ++ step :: after →
      step.Audited (Context.get context) before) ∧
    (Context.Lawful γ → ∀ name,
      Context.get (request.evaluation ev context).context name =
        (Step.lastStored? e.trace.steps name).or (Context.get context name)) := by
  obtain ⟨program, q, _, hrun, _, htrace, _, hanswer⟩ := evaluation_ok he
  have htracks : Run.TracksFlow (Context.get context) q := by
    refine Run.keeps_of_program_ok hrun ⟨fun _ => rfl, ?_⟩ fun _ _ h => h.tracksFlow
    intro before step after hsplit
    cases before <;> cases hsplit
  rw [htrace, hanswer]
  refine ⟨htracks.audited, fun hlawful name => ?_⟩
  rw [← htracks.stored]
  exact Writes.get_commit hlawful (Run.nodup_of_program_ok hrun) context name

/-- A name of the context is loaded, shadowed, loaded again and shadowed once more. -/
theorem Request.trace_audits_flow_shadowed :
    let ev : Evaluator Stepper := { roller := { value := 1, step := 0 } }
    let vars : Variables := .ofList [("x", Value.number 5), ("y", Value.string "kept")]
    let code : List Instruction :=
      [.load "x", .push (.number 1), .binary (.arithmetic .add), .store "x", .load "x",
        .binary (.arithmetic .mul), .store "x", .unary .minus]
    let request := Request.program { code } false
    ∃ e, (request.evaluation ev vars).result = .ok e ∧ e.value = .number (-36) ∧
      (∀ before step after, e.trace.steps = before ++ step :: after →
        step.Audited (Context.get vars) before) ∧
      ∀ name, Context.get (request.evaluation ev vars).context name =
        (Step.lastStored? e.trace.steps name).or (Context.get vars name) := by
  intro ev vars code request
  have hresult :
      (request.evaluation ev vars).result.map Evaluation.value = .ok (.number (-36)) := rfl
  cases he : (request.evaluation ev vars).result with
  | error why =>
    rw [he] at hresult
    cases hresult
  | ok e =>
    rw [he] at hresult
    obtain ⟨haudited, hfinal⟩ := trace_audits_flow ev vars request he
    exact ⟨e, rfl, Except.ok.inj hresult, haudited, hfinal Variables.lawful⟩

end Tabletop
