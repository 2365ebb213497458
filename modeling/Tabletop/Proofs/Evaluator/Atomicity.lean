import Tabletop.Evaluator
import Tabletop.Proofs.Run.Safety
import Tabletop.Proofs.Run.Writes

/-!
# Evaluations are atomic

An evaluator writes to its context only when nothing can fail any more.  To say so, every request is also
answered in a context that records each assignment it gets, `Recorded`: the answer is the same, and the
record shows which calls of `Context.set` the request has made.

A request that fails has made none, however many assignments its run had carried out before.  One that
succeeds has made one call for each name that its run assigned, in the order of first assignment, with
the value assigned last.
-/

namespace Tabletop

/-! ## Requests -/

/-- What an evaluator can be asked to evaluate. -/
inductive Request where
  | program (program : Program) (bigFail : Bool)
  | value (source : String) (bigFail : Bool)
  | text (source : String)
  | template (source : String)

namespace Request

variable {ρ γ : Type}

/-- The program that a request runs, unless its source text has none. -/
def program? : Request → Except SyntaxError Program
  | program p _ => .ok p
  | value source _ => Program.ofSource source
  | text source => Program.ofSource source
  | template source => Program.ofTemplate source

/-- Whether a request asks for big fails. -/
def bigFail : Request → Bool
  | program _ bigFail => bigFail
  | value _ bigFail => bigFail
  | text _ => false
  | template _ => false

/-- The type that the result has to have. -/
def expected : Request → Option ValueType
  | program _ _ => none
  | value _ _ => none
  | text _ => some .string
  | template _ => some .string

/-- The answer to a request, without what it evaluates to. -/
def answer [Roller ρ] [Context γ] (ev : Evaluator ρ) (context : γ) :
    Request → Answer ρ γ Unit
  | program p bigFail => (ev.run p context bigFail none).map fun _ => ()
  | value source bigFail => (ev.evaluate source context bigFail).map fun _ => ()
  | text source => (ev.evaluateText source context).map fun _ => ()
  | template source => (ev.fillTemplate source context).map fun _ => ()

/-- The calls of `Context.set` that a request makes, in order. -/
def calls [Roller ρ] [Context γ] (ev : Evaluator ρ) (context : γ) (request : Request) :
    List (String × Value) :=
  (request.answer ev (Recorded.mk context [])).context.assignments

/-- Every request runs a program that was read before. -/
theorem answer_eq [Roller ρ] [Context γ] (ev : Evaluator ρ) (context : γ) (request : Request) :
    request.answer ev context =
      (ev.runRead request.program? context request.bigFail request.expected).map fun _ => () := by
  have hmap : ∀ {α β : Type} (f : α → β) (a : Answer ρ γ α),
      (a.map f).map (fun _ => ()) = a.map fun _ => () := by
    intro α β f a
    rcases a with ⟨_ | _, _, _⟩ <;> rfl
  cases request with
  | program p bigFail => rfl
  | value source bigFail => rfl
  | text source => exact hmap _ _
  | template source => exact hmap _ _

end Request

/-! ## One run in a context -/

namespace Evaluator

variable {ρ γ α : Type} [Context γ]

theorem commit_recorded (writes : Writes) (context : Recorded γ) :
    writes.commit context =
      ⟨writes.commit context.context, context.assignments ++ writes⟩ := by
  induction writes generalizing context with
  | nil => rw [List.append_nil]; rfl
  | cons write writes ih =>
    show Writes.commit writes (Context.set context write.1 write.2) = _
    rw [ih]
    show Recorded.mk _ (context.assignments ++ [write] ++ writes) = _
    rw [List.append_assoc, List.singleton_append]
    rfl

/-- What a context sees of an evaluation: `plain` is the answer in the context, `noted` the answer in the
context with a record, and `Made` holds of the calls that were made if the evaluation has succeeded. -/
structure Commits (context : γ) (Made : List (String × Value) → Prop) (plain : Answer ρ γ α)
    (noted : Answer ρ (Recorded γ) α) : Prop where
  result : noted.result = plain.result
  roller : noted.roller = plain.roller
  kept : noted.context.context = plain.context
  written : plain.context = Writes.commit noted.context.assignments context
  failed : ∀ why, plain.result = .error why → noted.context.assignments = []
  made : ∀ a, plain.result = .ok a → Made noted.context.assignments

theorem Commits.map {β : Type} {context : γ} {Made : List (String × Value) → Prop}
    {plain : Answer ρ γ α} {noted : Answer ρ (Recorded γ) α}
    (h : Commits context Made plain noted) (f : α → β) :
    Commits context Made (plain.map f) (noted.map f) where
  result := congrArg (Except.map f) h.result
  roller := h.roller
  kept := h.kept
  written := h.written
  failed why hwhy := by
    change plain.result.map f = .error why at hwhy
    cases hresult : plain.result with
    | error why => exact h.failed why hresult
    | ok a =>
      rw [hresult] at hwhy
      cases hwhy
  made b hb := by
    change plain.result.map f = .ok b at hb
    cases hresult : plain.result with
    | error why =>
      rw [hresult] at hb
      cases hb
    | ok a => exact h.made a hresult

/-- An evaluation that fails leaves its context alone. -/
theorem commits_of_error (context : γ) (Made : List (String × Value) → Prop) (why : Failure)
    (roller : ρ) :
    Commits (α := α) context Made ⟨.error why, roller, context⟩
      ⟨.error why, roller, ⟨context, []⟩⟩ where
  result := rfl
  roller := rfl
  kept := rfl
  written := rfl
  failed _ _ := rfl
  made a ha := by cases ha

/-- An evaluation that succeeds makes the calls that write what waits. -/
theorem commits_of_ok (context : γ) (Made : List (String × Value) → Prop) (a : α) (roller : ρ)
    (writes : Writes) (hmade : Made writes) :
    Commits context Made ⟨.ok a, roller, writes.commit context⟩
      ⟨.ok a, roller, writes.commit (Recorded.mk context [])⟩ := by
  rw [commit_recorded, List.nil_append]
  refine ⟨rfl, rfl, rfl, rfl, ?_, fun _ _ => hmade⟩
  intro why hwhy
  cases hwhy

/-- A computation that gives a value of the type that is demanded has its assignments written. -/
theorem commits_perform (ev : Evaluator ρ) (computation : Run ρ Value) (context : γ)
    (bigFail : Bool) (expected : Option ValueType) :
    Commits context
      (fun calls => ∃ v q,
        computation (ev.setting context bigFail) { roller := ev.roller } = .ok v q ∧
          calls = q.writes)
      (ev.perform computation context bigFail expected)
      (ev.perform computation (Recorded.mk context []) bigFail expected) := by
  have hsetting : ev.setting (Recorded.mk context []) bigFail = ev.setting context bigFail := rfl
  rw [perform, perform, hsetting]
  cases hrun : computation (ev.setting context bigFail) { roller := ev.roller } with
  | error why q => exact commits_of_error _ _ _ _
  | ok v q =>
    have hdone := commits_of_ok context
      (fun calls => ∃ v' q', (.ok v q : EStateM.Result RunError (Progress ρ) Value) = .ok v' q' ∧
        calls = q'.writes)
      (Evaluation.mk v q.trace q.bigFail) q.roller q.writes ⟨v, q, rfl, rfl⟩
    cases expected with
    | none => exact hdone
    | some type =>
      by_cases htype : v.type = type
      · simp only [if_pos htype]
        exact hdone
      · simp only [if_neg htype]
        exact commits_of_error _ _ _ _

end Evaluator

/-! ## Requests are atomic -/

/-- A run of the program has come to its end, having carried out `done`. -/
def Program.Completes {ρ : Type} [Roller ρ] (program : Program) (setting : Setting) (roller : ρ)
    (done : List (Instruction × List Value)) : Prop :=
  ∃ place stack q, Run.Reaches setting program.code { roller } done place stack q ∧
    program.size ≤ place

/-- The calls that the assignments of a run call for: one for each name, in the order in which the names
were first assigned, with the value that was assigned last. -/
def Instruction.CallsFor (done : List (Instruction × List Value)) (calls : List (String × Value)) :
    Prop :=
  calls.map Prod.fst = ((Instruction.assigned done).map Prod.fst).eraseDups ∧
    ∀ name v, (name, v) ∈ calls → (Instruction.assigned done).reverse.lookup name = some v

theorem Instruction.callsFor_ofAssignments (done : List (Instruction × List Value)) :
    Instruction.CallsFor done (Writes.ofAssignments (Instruction.assigned done)) := by
  refine ⟨Writes.map_fst_ofAssignments _, ?_⟩
  intro name v hcall
  rw [← Writes.get?_ofAssignments]
  exact Writes.get?_of_mem (Writes.nodup_ofAssignments _) hcall

/-- A run that gives a value has come to the end of its program, and what waits to be written is what its
store instructions have assigned. -/
theorem Run.callsFor_of_program_ok {ρ : Type} [Roller ρ] {program : Program} {setting : Setting}
    {roller : ρ} {v : Value} {q : Progress ρ}
    (h : Run.program program setting { roller } = .ok v q) :
    (∃ done, program.Completes setting roller done) ∧
      ∀ done, program.Completes setting roller done → Instruction.CallsFor done q.writes := by
  rw [Run.program_apply] at h
  split at h
  · rename_i stack r hcode
    cases h
    constructor
    · obtain ⟨done, place, hreaches, hend⟩ := Run.reaches_of_code_ok hcode
      exact ⟨done, place, _, _, hreaches, hend⟩
    · rintro done ⟨place, stack', q', hreaches, hend⟩
      have hsame := hreaches.code_ok hend
      rw [hcode] at hsame
      cases hsame
      rw [hreaches.writes_eq rfl]
      exact Instruction.callsFor_ofAssignments done
  · cases h
  · cases h

/-- What a request makes of its context, and which calls it makes if it succeeds. -/
theorem Request.commits {ρ γ : Type} [Roller ρ] [Context γ] (ev : Evaluator ρ) (context : γ)
    (request : Request) :
    Evaluator.Commits context
      (fun calls => ∃ program, request.program? = .ok program ∧
        (∃ done, program.Completes (ev.setting context request.bigFail) ev.roller done) ∧
        ∀ done, program.Completes (ev.setting context request.bigFail) ev.roller done →
          Instruction.CallsFor done calls)
      (request.answer ev context) (request.answer ev (Recorded.mk context [])) := by
  rw [answer_eq, answer_eq]
  apply Evaluator.Commits.map
  cases hprogram : request.program? with
  | error why => exact Evaluator.commits_of_error _ _ _ _
  | ok program =>
    have hperform := ev.commits_perform (Run.program program) context request.bigFail request.expected
    refine { hperform with made := fun a ha => ?_ }
    obtain ⟨v, q, hrun, hcalls⟩ := hperform.made a ha
    refine ⟨program, rfl, ?_⟩
    have hall := Run.callsFor_of_program_ok hrun
    rw [← hcalls] at hall
    exact hall

/-- A context with a record answers as the context itself does. -/
theorem Request.answer_recorded {ρ γ : Type} [Roller ρ] [Context γ] (ev : Evaluator ρ) (context : γ)
    (request : Request) :
    request.answer ev (Recorded.mk context []) =
      { result := (request.answer ev context).result
        roller := (request.answer ev context).roller
        context := ⟨(request.answer ev context).context, request.calls ev context⟩ } := by
  have hcommits := request.commits ev context
  rw [← hcommits.result, ← hcommits.roller, ← hcommits.kept]
  rfl

/-- Every request is atomic.  A context that keeps a record of its calls is answered as the context itself is,
and what the request leaves of its context is what its calls of `Context.set` make of it.  If it fails, it has
made no call and the context is what it was; if it succeeds, its program has run to the end, and it has made
exactly the calls that the store instructions of that run call for. -/
theorem Request.answer_atomic {ρ γ : Type} [Roller ρ] [Context γ] (ev : Evaluator ρ) (context : γ)
    (request : Request) :
    request.answer ev (Recorded.mk context []) =
      { result := (request.answer ev context).result
        roller := (request.answer ev context).roller
        context := ⟨(request.answer ev context).context, request.calls ev context⟩ } ∧
    (request.answer ev context).context = Writes.commit (request.calls ev context) context ∧
    match (request.answer ev context).result with
    | .error _ => request.calls ev context = [] ∧ (request.answer ev context).context = context
    | .ok _ => ∃ program, request.program? = .ok program ∧
      (∃ done, program.Completes (ev.setting context request.bigFail) ev.roller done) ∧
      ∀ done, program.Completes (ev.setting context request.bigFail) ev.roller done →
        Instruction.CallsFor done (request.calls ev context) := by
  have hcommits := request.commits ev context
  have hwritten : (request.answer ev context).context =
      Writes.commit (request.calls ev context) context := hcommits.written
  refine ⟨request.answer_recorded ev context, hwritten, ?_⟩
  split
  · rename_i why hresult
    have hnone : request.calls ev context = [] := hcommits.failed why hresult
    rw [hnone] at hwritten
    exact ⟨hnone, hwritten⟩
  · rename_i hresult
    exact hcommits.made _ hresult

end Tabletop
