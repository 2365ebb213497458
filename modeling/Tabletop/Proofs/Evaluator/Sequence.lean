import Tabletop.Proofs.Evaluator.Answers
import Tabletop.Proofs.Evaluator.Commit
import Tabletop.Proofs.Program.Meaning
import Tabletop.Proofs.Run.Lockstep
import Tabletop.Proofs.Run.Steps
import Tabletop.Proofs.Script.Sequence

/-!
# Evaluations in sequence

Whether two source texts are evaluated one after the other or as one text with a semicolon between them
makes no difference.  As one text, the second script sees what the first has assigned while it waits to be
written; by itself, it sees the same in the context.  The two runs of the second script go in lockstep,
`Run.Continues`.
-/

namespace Tabletop

/-- A trace and then another. -/
def Trace.append (t u : Trace) : Trace :=
  { log := t.log ++ u.log }

@[simp]
theorem Trace.append_push (t u : Trace) (step : Step) :
    t.append (u.push step) = (t.append u).push step := by
  simp [append, push]

@[simp]
theorem Trace.append_empty (t : Trace) : t.append {} = t := by
  simp [append]

/-- What two evaluations in sequence give. -/
def Evaluation.andThen (first second : Evaluation) : Evaluation :=
  { value := second.value
    trace := first.trace.append second.trace
    bigFail := first.bigFail || second.bigFail }

/-- An answer is what two answers make together, the second of which goes on where the first ends. -/
structure Answer.Composes {ρ γ : Type} (whole first second : Answer ρ γ Evaluation) : Prop where
  /-- It succeeds if and only if both do. -/
  succeeds : (∃ e, whole.result = .ok e) ↔
    (∃ e, first.result = .ok e) ∧ ∃ e, second.result = .ok e
  /-- Then it gives what both give, and ends where the second ends. -/
  gives : ∀ e₁ e₂, first.result = .ok e₁ → second.result = .ok e₂ → whole =
    { result := .ok (e₁.andThen e₂), roller := second.roller, context := second.context }

theorem Answer.composes_of_ok {ρ γ : Type} {first second : Answer ρ γ Evaluation} {e₁ e₂ : Evaluation}
    (hfirst : first.result = .ok e₁) (hsecond : second.result = .ok e₂) :
    Composes { result := .ok (e₁.andThen e₂), roller := second.roller, context := second.context }
      first second where
  succeeds := iff_of_true ⟨_, rfl⟩ ⟨⟨_, hfirst⟩, _, hsecond⟩
  gives f₁ f₂ h₁ h₂ := by
    rw [Except.ok.inj (hfirst.symm.trans h₁), Except.ok.inj (hsecond.symm.trans h₂)]

theorem Answer.composes_of_error {ρ γ : Type} {whole first second : Answer ρ γ Evaluation}
    {why : Failure} (hwhole : whole.result = .error why)
    (hfails : first.result = .error why ∨ second.result = .error why) : Composes whole first second := by
  have hnot : ¬((∃ e, first.result = .ok e) ∧ ∃ e, second.result = .ok e) := by
    rintro ⟨⟨e₁, h₁⟩, e₂, h₂⟩
    rcases hfails with h | h
    · rw [h] at h₁
      cases h₁
    · rw [h] at h₂
      cases h₂
  refine ⟨iff_of_false ?_ hnot, fun e₁ e₂ h₁ h₂ => absurd ⟨⟨e₁, h₁⟩, e₂, h₂⟩ hnot⟩
  rintro ⟨e, he⟩
  rw [hwhole] at he
  cases he

namespace Run

variable {ρ : Type}

/-- The progress `p` of a run that goes on from `before`, and the progress `q` of a run that begins anew:
the roller is the same, both see the same variables, and what `q` has left behind, `p` has left behind
after what it had from `before`. -/
structure Continues (lookup lookup' : String → Option Value) (before p q : Progress ρ) : Prop where
  roller : p.roller = q.roller
  sees : ∀ name, (p.writes.get? name).or (lookup name) = (q.writes.get? name).or (lookup' name)
  trace : p.trace = before.trace.append q.trace
  bigFail : p.bigFail = (before.bigFail || q.bigFail)

theorem Continues.push {lookup lookup' : String → Option Value} {before p q : Progress ρ}
    (h : Continues lookup lookup' before p q) (step : Step) :
    Continues lookup lookup' before { p with trace := p.trace.push step }
      { q with trace := q.trace.push step } where
  roller := h.roller
  sees := h.sees
  trace := by rw [Trace.append_push, ← h.trace]
  bigFail := h.bigFail

theorem Continues.store {lookup lookup' : String → Option Value} {before p q : Progress ρ}
    (h : Continues lookup lookup' before p q) (name : String) (v : Value) :
    Continues lookup lookup' before { p with writes := p.writes.set name v }
      { q with writes := q.writes.set name v } where
  roller := h.roller
  sees other := by
    rw [Writes.get?_set, Writes.get?_set]
    by_cases hother : name = other
    · rw [if_pos hother, if_pos hother]
      rfl
    · rw [if_neg hother, if_neg hother]
      exact h.sees other
  trace := h.trace
  bigFail := h.bigFail

variable [Roller ρ]

theorem Continues.thrown {lookup lookup' : String → Option Value} {before p q : Progress ρ}
    (h : Continues lookup lookup' before p q) (term : DiceTerm) (setting : Setting)
    (other : String → Option Value) :
    Continues lookup lookup' before (thrown term setting p)
      (thrown term { setting with lookup := other } q) where
  roller := by rw [Run.thrown, Run.thrown, h.roller]
  sees := h.sees
  trace := h.trace
  bigFail := by
    rw [Run.thrown, Run.thrown, h.roller, h.bigFail]
    exact Bool.or_assoc _ _ _

/-- Without a limit no effect can tell the two runs from each other. -/
theorem lockstep_continues (setting : Setting) (hlimit : setting.maxRolls = none)
    (lookup : String → Option Value) (before : Progress ρ) :
    Lockstep (Continues setting.lookup lookup before) setting { setting with lookup } where
  rollDice term p q hpq := by
    have hthrown := hpq.thrown term setting lookup
    have hfaces : term.facesFrom setting.rule p.roller = term.facesFrom setting.rule q.roller := by
      rw [hpq.roller]
    refine Agree.rollDice term ?_ ?_ ?_ ⟨hpq.roller, hpq.sees, hpq.trace, hpq.bigFail⟩ hthrown
      fun total => ?_
    · rw [hlimit]
      rfl
    · rw [hfaces]
    · rw [hfaces]
    · rw [hfaces]
      exact hthrown.push _
  load name p q hpq := Agree.load name hpq (hpq.sees name) fun _ => hpq.push _
  store name v p q hpq := .ok ((hpq.store name v).push (.store name v))
  unary op v p q hpq := Agree.unary op v hpq fun _ => hpq.push _
  binary op l r p q hpq := Agree.binary op l r hpq fun _ => hpq.push _

end Run

/-! ## Two evaluations -/

namespace Evaluator

variable {ρ : Type} [Roller ρ]

theorem evaluate_eq_run {γ : Type} [Context γ] {source : String} {script : Script}
    (h : Script.ofSource source = .ok script) (ev : Evaluator ρ) (context : γ) (bigFail : Bool) :
    ev.evaluate source context bigFail = ev.run script.compile context bigFail none :=
  runRead_ofSource h ev context bigFail none

/-- A run of two scripts in sequence is the run of the first and, if this gives a value, that of the
second. -/
theorem program_append (s t : Script) :
    (Run.program (s.append t).compile : Run ρ Value) =
      Run.program s.compile >>= fun _ => Run.program t.compile := by
  rw [Run.program_compile, Run.program_compile, Run.program_compile, Script.eval_append]

/-- A run that begins where another has ended begins as one that goes on from there. -/
theorem continues_of_program_ok {program : Program} {vars : Variables} {bigFail : Bool}
    {ev : Evaluator ρ} {v : Value} {p : Progress ρ}
    (h : Run.program program (ev.setting vars bigFail) { roller := ev.roller } = .ok v p) :
    Run.Continues (Context.get vars) (Context.get (p.writes.commit vars)) p p { roller := p.roller }
    where
  roller := rfl
  sees name := (Writes.get_commit Variables.lawful (Run.nodup_of_program_ok h) vars name).symm
  trace := (Trace.append_empty p.trace).symm
  bigFail := (Bool.or_false p.bigFail).symm

omit [Roller ρ] in
/-- What two runs leave together is the same, whether the first is committed between them or not. -/
theorem settled_of_continues {vars : Variables} {p q r : Progress ρ} (u v : Value)
    (hqr : Run.Continues (Context.get vars) (Context.get (p.writes.commit vars)) p q r)
    (hq : (q.writes.map Prod.fst).Nodup) (hr : (r.writes.map Prod.fst).Nodup) :
    settled vars v q =
      { result := .ok
          (Evaluation.andThen { value := u, trace := p.trace, bigFail := p.bigFail }
            { value := v, trace := r.trace, bigFail := r.bigFail })
        roller := r.roller
        context := r.writes.commit (p.writes.commit vars) } := by
  have hvars : q.writes.commit vars = r.writes.commit (p.writes.commit vars) := by
    refine Variables.ext fun name => ?_
    rw [Writes.get_commit Variables.lawful hq, Writes.get_commit Variables.lawful hr]
    exact hqr.sees name
  rw [settled, Evaluation.andThen, hqr.roller, hqr.trace, hqr.bigFail, hvars]

/-- Without a limit on rolls, the program of two scripts in sequence does what the programs of the two
scripts do one after the other. -/
theorem composes_run (ev : Evaluator ρ) (hlimit : ev.config.maxRolls = none) (s t : Script)
    (vars : Variables) (bigFail : Bool) :
    Answer.Composes (ev.run (s.append t).compile vars bigFail none)
      (ev.run s.compile vars bigFail none)
      ({ ev with roller := (ev.run s.compile vars bigFail none).roller }.run t.compile
        (ev.run s.compile vars bigFail none).context bigFail none) := by
  have htype : ∀ v : Value, ∀ type ∈ (none : Option ValueType), v.type = type := nofun
  have hwhole := congrFun (congrFun (program_append s t) (ev.setting vars bigFail))
    { roller := ev.roller }
  rw [Run.bind_apply] at hwhole
  cases hs : Run.program s.compile (ev.setting vars bigFail) { roller := ev.roller } with
  | error why p =>
    rw [hs] at hwhole
    rw [run_of_error hs, run_of_error hwhole]
    exact Answer.composes_of_error rfl (.inl rfl)
  | ok u p =>
    rw [hs] at hwhole
    rw [run_of_ok hs (htype u)]
    show Answer.Composes _ _
      ({ ev with roller := p.roller }.run t.compile (p.writes.commit vars) bigFail none)
    -- the second script runs on from `p`, or anew with the roller and the variables that `p` leaves
    have hlockstep : Run.Lockstep
        (Run.Continues (Context.get vars) (Context.get (p.writes.commit vars)) p)
        (ev.setting vars bigFail)
        ({ ev with roller := p.roller }.setting (p.writes.commit vars) bigFail) :=
      Run.lockstep_continues (ev.setting vars bigFail) hlimit _ p
    have hagree := hlockstep.program (continues_of_program_ok hs) t.compile
    rcases hagree.elim with ⟨v, q, r, hq, hr, hqr⟩ | ⟨why, q, r, hq, hr, _⟩
    · have hnodup := Run.nodup_of_program_ok (hwhole.trans hq)
      have hfirst : (settled vars u p).result =
          .ok { value := u, trace := p.trace, bigFail := p.bigFail } := rfl
      have hsecond : (settled (p.writes.commit vars) v r).result =
          .ok { value := v, trace := r.trace, bigFail := r.bigFail } := rfl
      rw [run_of_ok (hwhole.trans hq) (htype v), run_of_ok hr (htype v),
        settled_of_continues u v hqr hnodup (Run.nodup_of_program_ok hr)]
      exact Answer.composes_of_ok hfirst hsecond
    · rw [run_of_error (hwhole.trans hq), run_of_error hr]
      exact Answer.composes_of_error rfl (.inr rfl)

/-- Without a limit on rolls, evaluating two source texts with a semicolon between them equals evaluating
one after the other, the second with the roller and the variables that the first leaves.  The one succeeds
if and only if both others do, and then it gives the value of the second, the trace of the first followed
by that of the second, and a big fail if there is one in either; the variables and the roller are the
same in the end. -/
theorem evaluate_sequence (ev : Evaluator ρ) (hlimit : ev.config.maxRolls = none) {a b : String}
    (ha : ∃ s, Script.ofSource a = .ok s) (hb : ∃ t, Script.ofSource b = .ok t)
    (hlast : ∀ last ∈ (Token.scan 0 a.toList).getLast?, last.kind ≠ .semicolon) (vars : Variables)
    (bigFail : Bool) :
    Answer.Composes (ev.evaluate (a ++ ";" ++ b) vars bigFail) (ev.evaluate a vars bigFail)
      ({ ev with roller := (ev.evaluate a vars bigFail).roller }.evaluate b
        (ev.evaluate a vars bigFail).context bigFail) := by
  obtain ⟨s, ha⟩ := ha
  obtain ⟨t, hb⟩ := hb
  rw [evaluate_eq_run (Script.ofSource_append ha hb hlast), evaluate_eq_run ha, evaluate_eq_run hb]
  exact ev.composes_run hlimit s t vars bigFail

/-- The second text sees what the first has assigned, shadows it and rolls on. -/
theorem evaluate_sequence_shadowed :
    let ev : Evaluator Stepper := { roller := { value := 1, step := 2 }, config := { maxRolls := none } }
    let vars : Variables := .ofList [("x", Value.number 5)]
    let whole := ev.evaluate ("x = x + d6" ++ ";" ++ "x = x * d6; x;") vars true
    let first := ev.evaluate "x = x + d6" vars true
    whole.result.map Evaluation.value = .ok (.number 18) ∧
      whole.Composes first
        ({ ev with roller := first.roller }.evaluate "x = x * d6; x;" first.context true) := by
  intro ev vars whole first
  have ha : (Script.ofSource "x = x + d6").toOption.isSome := by decide +kernel
  have hb : (Script.ofSource "x = x * d6; x;").toOption.isSome := by decide +kernel
  have hlast : (Token.scan 0 "x = x + d6".toList).getLast?.map Token.kind = some .dice := by decide +kernel
  obtain ⟨s, hs⟩ := Option.isSome_iff_exists.1 ha
  obtain ⟨t, ht⟩ := Option.isSome_iff_exists.1 hb
  have hvalue : whole.result.map Evaluation.value = .ok (.number 18) := by
    dsimp only [whole]
    decide +kernel
  refine ⟨hvalue,
    evaluate_sequence ev rfl ⟨s, toOption_eq_some.1 hs⟩ ⟨t, toOption_eq_some.1 ht⟩ ?_ vars true⟩
  intro last hmem
  rw [Option.mem_def.1 hmem] at hlast
  rw [Option.some.inj hlast]
  decide

end Evaluator
end Tabletop
