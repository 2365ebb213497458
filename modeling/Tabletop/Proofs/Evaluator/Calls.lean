import Tabletop.Proofs.Evaluator.Answers
import Tabletop.Proofs.Evaluator.Commit
import Tabletop.Proofs.Run.Steps

/-!
# Calls in sequence

A context is lent to evaluators, one call after the other, and each call finds the context as the one
before has left it.  The evaluators may differ from call to call; one that is called again goes on with its
roller.  What calls assign is read off the traces of those that succeed (`Call.assignments`), and is all
that becomes of the context (`Call.context_answer`).

A call cannot tell a context from another that finds the same values and takes the same assignments.
`Context.Hom` says so of a map between contexts, and calls commute with such a map.
-/

namespace Tabletop

/-! ## Assignments in a trace -/

/-- The assignment that a step records. -/
def Step.assignment? : Step → Option (String × Value)
  | .store name v => some (name, v)
  | _ => none

/-- The assignments that a trace records, in the order in which they were made. -/
def Trace.assignments (t : Trace) : List (String × Value) :=
  t.steps.filterMap Step.assignment?

theorem Trace.assignments_push (t : Trace) (step : Step) :
    (t.push step).assignments = t.assignments ++ step.assignment?.toList := by
  rw [assignments, steps_push, List.filterMap_append]
  cases h : step.assignment? <;> simp [assignments, h]

/-- What waits to be written is what the trace records. -/
theorem Run.Proceeds.writes_eq {ρ : Type} [Roller ρ] {setting : Setting} {p q : Progress ρ}
    (h : Proceeds setting p q) (hp : p.writes = Writes.ofAssignments p.trace.assignments) :
    q.writes = Writes.ofAssignments q.trace.assignments := by
  cases h with
  | silent => exact hp
  | store =>
    rw [Trace.assignments_push, hp]
    exact (Writes.ofAssignments_append_singleton _ _ _).symm
  | roll _ _ | load _ | unary _ | binary _ =>
    rw [Trace.assignments_push]
    exact hp.trans (congrArg Writes.ofAssignments (List.append_nil _).symm)

namespace Request

variable {ρ γ : Type} [Roller ρ] [Context γ] {ev : Evaluator ρ} {context : γ} {request : Request}

/-- An evaluation that succeeds leaves its context with the assignments of its trace. -/
theorem context_of_ok {e : Evaluation} (h : (request.evaluation ev context).result = .ok e) :
    (request.evaluation ev context).context =
      (Writes.ofAssignments e.trace.assignments).commit context := by
  obtain ⟨program, q, _, hrun, _, htrace, _, hanswer⟩ := evaluation_ok h
  have hwrites : q.writes = Writes.ofAssignments q.trace.assignments := by
    refine Run.keeps_of_program_ok hrun ?_ fun _ _ h => h.writes_eq
    rfl
  rw [hanswer, htrace, ← hwrites]
  rfl

/-- An evaluation that fails leaves its context as it was. -/
theorem context_of_error {why : Failure}
    (h : (request.evaluation ev context).result = .error why) :
    (request.evaluation ev context).context = context := by
  cases hprogram : request.program? with
  | error why =>
    rw [evaluation, hprogram]
    rfl
  | ok program =>
    rw [evaluation_eq_run hprogram] at h ⊢
    cases hrun : Run.program program (ev.setting context request.bigFail) { roller := ev.roller } with
    | error why q => rw [Evaluator.run_of_error hrun]
    | ok v q =>
      by_cases htype : ∀ type ∈ request.expected, v.type = type
      · rw [Evaluator.run_of_ok hrun htype] at h
        cases h
      · simp only [Classical.not_forall] at htype
        obtain ⟨type, hexpected, hne⟩ := htype
        rw [Option.mem_def.1 hexpected, Evaluator.run_of_type_ne hrun hne]

end Request

/-! ## Calls -/

/-- A request to an evaluator. -/
structure Call where
  {ρ : Type}
  [roller : Roller ρ]
  evaluator : Evaluator ρ
  request : Request

attribute [instance] Call.roller

namespace Call

variable {γ δ : Type} [Context γ] [Context δ]

/-- What a call gives, and what it leaves of its roller and its context. -/
def answer (call : Call) (context : γ) : Answer call.ρ γ Evaluation :=
  call.request.evaluation call.evaluator context

/-- The assignments that a call makes, as its trace records them.  One that fails makes none. -/
def assigned (call : Call) (context : γ) : List (String × Value) :=
  match (call.answer context).result with
  | .ok e => e.trace.assignments
  | .error _ => []

/-- The context after calls. -/
def contextAfter (context : γ) (calls : List Call) : γ :=
  calls.foldl (fun context call => (call.answer context).context) context

/-- The assignments that calls make, one after the other. -/
def assignments (context : γ) : List Call → List (String × Value)
  | [] => []
  | call :: calls => call.assigned context ++ assignments (call.answer context).context calls

/-- A call leaves its context with its assignments. -/
theorem context_answer (call : Call) (context : γ) :
    (call.answer context).context =
      (Writes.ofAssignments (call.assigned context)).commit context := by
  rw [assigned]
  cases h : (call.answer context).result with
  | ok e => exact Request.context_of_ok h
  | error why => exact Request.context_of_error h

end Call

/-! ## The same call in two contexts -/

/-- A map between contexts that keeps what is found in them and takes assignments along. -/
structure Context.Hom {γ δ : Type} [Context γ] [Context δ] (f : γ → δ) : Prop where
  get : ∀ context name, Context.get (f context) name = Context.get context name
  set : ∀ context name v, Context.set (f context) name v = f (Context.set context name v)

/-- An answer with another context. -/
def Answer.mapContext {ρ γ δ α : Type} (f : γ → δ) (a : Answer ρ γ α) : Answer ρ δ α :=
  { result := a.result, roller := a.roller, context := f a.context }

namespace Context.Hom

variable {ρ γ δ : Type} [Context γ] [Context δ] {f : γ → δ} (h : Context.Hom f)

include h

theorem commit (writes : Writes) (context : γ) :
    writes.commit (f context) = f (writes.commit context) := by
  induction writes generalizing context with
  | nil => rfl
  | cons write writes ih =>
    show Writes.commit writes (Context.set (f context) write.1 write.2) = _
    rw [h.set, ih]
    rfl

/-- A computation goes by what it finds in its context. -/
theorem perform (ev : Evaluator ρ) (computation : Run ρ Value) (context : γ) (bigFail : Bool)
    (expected : Option ValueType) :
    ev.perform computation (f context) bigFail expected =
      (ev.perform computation context bigFail expected).mapContext f := by
  have hsetting : ev.setting (f context) bigFail = ev.setting context bigFail := by
    rw [Evaluator.setting, Evaluator.setting, funext (h.get context)]
  rw [Evaluator.perform, Evaluator.perform, hsetting]
  cases computation (ev.setting context bigFail) { roller := ev.roller } with
  | error why q => rfl
  | ok v q =>
    simp only [h.commit]
    cases expected with
    | none => rfl
    | some type =>
      by_cases htype : v.type = type
      · simp only [if_pos htype]
        rfl
      · simp only [if_neg htype]
        rfl

theorem answer (call : Call) (context : γ) :
    call.answer (f context) = (call.answer context).mapContext f := by
  rw [Call.answer, Call.answer, Request.evaluation, Request.evaluation]
  cases call.request.program? with
  | error why => rfl
  | ok program => exact h.perform _ _ _ _ _

theorem contextAfter (context : γ) (calls : List Call) :
    Call.contextAfter (f context) calls = f (Call.contextAfter context calls) := by
  induction calls generalizing context with
  | nil => rfl
  | cons call calls ih =>
    show Call.contextAfter (call.answer (f context)).context calls = _
    rw [h.answer]
    exact ih _

theorem assignments (context : γ) (calls : List Call) :
    Call.assignments (f context) calls = Call.assignments context calls := by
  induction calls generalizing context with
  | nil => rfl
  | cons call calls ih =>
    rw [Call.assignments, Call.assignments, Call.assigned, Call.assigned, h.answer]
    exact congrArg _ (ih _)

end Context.Hom
end Tabletop
