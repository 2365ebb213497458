import Tabletop.Proofs.Evaluator.Answers
import Tabletop.Proofs.Program.Meaning

/-!
# Text mode

A script can be evaluated for a text.  This is its evaluation for a value, and then a number is refused, which
costs the assignments but not the dice.  A template is filled in with the same demand, and there the demand is
always met: whatever the scripts between the braces leave on the stack is taken from it, and one text is put in
its place.
-/

namespace Tabletop

variable {ρ γ : Type} [Roller ρ] [Context γ]

/-! ## Templates give texts -/

/-- A template is evaluated to a text, if to anything. -/
theorem Expr.exists_string_of_eval_template {segments : List Segment} {setting : Setting}
    {p q : Progress ρ} {v : Value} (h : (template segments).eval setting p = .ok v q) :
    ∃ s, v = .string s := by
  rw [eval] at h
  obtain ⟨values, r, -, h⟩ := Run.bind_ok h
  cases h
  exact ⟨_, rfl⟩

theorem Program.exists_template_of_ofTemplate {source : String} {program : Program}
    (h : ofTemplate source = .ok program) :
    ∃ segments, program = (Script.single (.template segments)).compile := by
  rw [ofTemplate, Script.ofTemplate] at h
  cases hbody : Segment.readBody 0 source.toList with
  | error why =>
    rw [hbody] at h
    cases h
  | ok segments =>
    rw [hbody] at h
    cases h
    exact ⟨segments, rfl⟩

/-- The program of a template that comes to its end has left a text, and nothing under it. -/
theorem Run.exists_string_of_code_ofTemplate {source : String} {program : Program}
    (hprogram : Program.ofTemplate source = .ok program) {setting : Setting} {p q : Progress ρ}
    {stack : List Value} (h : Run.code 0 0 program.code [] setting p = .ok stack q) :
    ∃ s, stack = [.string s] := by
  obtain ⟨segments, rfl⟩ := Program.exists_template_of_ofTemplate hprogram
  rw [Run.code_compile] at h
  obtain ⟨v, r, heval, h⟩ := Run.bind_ok h
  rw [Script.single, Script.eval] at heval
  obtain ⟨u, _, htemplate, hu⟩ := Run.bind_ok heval
  obtain ⟨s, rfl⟩ := Expr.exists_string_of_eval_template htemplate
  cases hu
  cases h
  exact ⟨s, rfl⟩

theorem Run.exists_string_of_program_ofTemplate {source : String} {program : Program}
    (hprogram : Program.ofTemplate source = .ok program) {setting : Setting} {p q : Progress ρ}
    {v : Value} (h : Run.program program setting p = .ok v q) : ∃ s, v = .string s := by
  rw [Run.program_apply] at h
  split at h
  · rename_i hcode
    cases h
    obtain ⟨s, hs⟩ := Run.exists_string_of_code_ofTemplate hprogram hcode
    exact ⟨s, (List.cons.inj hs).1⟩
  · cases h
  · cases h

/-! ## The demand for a text -/

/-- What is left of an answer when a text is demanded of it, in a context that was `before`: a number is a
failure, and then nothing has been assigned. -/
def Answer.demandText {ρ γ : Type} (before : γ) (a : Answer ρ γ Evaluation) :
    Answer ρ γ (String × Trace) :=
  match a.result with
  | .error why => { a with result := .error why }
  | .ok e =>
    match e.value with
    | .string s => { a with result := .ok (s, e.trace) }
    | .number _ => { a with result := .error (.wrongType .string .number), context := before }

namespace Evaluator

theorem run_text_of_ok {ev : Evaluator ρ} {program : Program} {context : γ} {bigFail : Bool} {s : String}
    {q : Progress ρ}
    (h : Run.program program (ev.setting context bigFail) { roller := ev.roller } = .ok (.string s) q) :
    ev.run program context bigFail (some .string) = settled context (.string s) q :=
  run_of_ok h fun _ htype => Option.some.inj htype

/-- To demand a text of a run is to demand it of the answer. -/
theorem map_textOf_run (ev : Evaluator ρ) (program : Program) (context : γ) (bigFail : Bool) :
    (ev.run program context bigFail (some .string)).map textOf =
      (ev.run program context bigFail none).demandText context := by
  cases hrun : Run.program program (ev.setting context bigFail) { roller := ev.roller } with
  | error why q =>
    rw [run_of_error hrun, run_of_error hrun]
    rfl
  | ok v q =>
    have hany : ∀ type ∈ (none : Option ValueType), v.type = type := nofun
    rw [run_of_ok hrun hany]
    cases v with
    | string s =>
      rw [run_text_of_ok hrun]
      rfl
    | number x =>
      have hnumber : (Value.number x).type ≠ .string := fun htype => by cases htype
      rw [run_of_type_ne hrun hnumber]
      rfl

theorem map_textOf_runRead (ev : Evaluator ρ) (program : Except SyntaxError Program) (context : γ)
    (bigFail : Bool) :
    (ev.runRead program context bigFail (some .string)).map textOf =
      (ev.runRead program context bigFail none).demandText context := by
  cases program with
  | error why => rfl
  | ok program => exact ev.map_textOf_run program context bigFail

/-- A template that is filled in is never of the wrong type. -/
theorem fillTemplate_ne_wrongType (ev : Evaluator ρ) (source : String) (context : γ)
    (expected found : ValueType) :
    (ev.fillTemplate source context).result ≠ .error (.wrongType expected found) := by
  rw [fillTemplate]
  cases hprogram : Program.ofTemplate source with
  | error why => exact nofun
  | ok program =>
    show ((ev.run program context false (some .string)).map textOf).result ≠ _
    cases hrun : Run.program program (ev.setting context false) { roller := ev.roller } with
    | error why q =>
      rw [run_of_error hrun]
      exact nofun
    | ok v q =>
      obtain ⟨s, rfl⟩ := Run.exists_string_of_program_ofTemplate hprogram hrun
      rw [run_text_of_ok hrun]
      exact nofun

/-- Text mode is value mode with a demand for a text.  Where value mode fails, text mode fails with the same
error; where it gives a text, that text, its trace, the assignments and the roller are the same; and where it
gives a number, text mode is a failure that leaves the context as it was and the roller as it has become.  The
context and the roller may be such as remember what is assigned and what is thrown.

A template is filled in under the same demand, and never fails for it: a program that was compiled as a
template, if it comes to its end from any progress whatever, has one text on the stack and nothing else. -/
theorem evaluateText_eq_demandText (ev : Evaluator ρ) (context : γ) (source : String) :
    ev.evaluateText source context = (ev.evaluate source context false).demandText context ∧
    ev.fillTemplate source context =
      (ev.runRead (Program.ofTemplate source) context false none).demandText context ∧
    (∀ expected found,
      (ev.fillTemplate source context).result ≠ .error (.wrongType expected found)) ∧
    ∀ program, Program.ofTemplate source = .ok program →
      ∀ (setting : Setting) (p q : Progress ρ) (stack : List Value),
        Run.code 0 0 program.code [] setting p = .ok stack q → ∃ s, stack = [.string s] := by
  refine ⟨ev.map_textOf_runRead _ context false, ev.map_textOf_runRead _ context false,
    ev.fillTemplate_ne_wrongType source context, ?_⟩
  intro program hprogram setting p q stack hcode
  exact Run.exists_string_of_code_ofTemplate hprogram hcode

/-- The script in the template leaves numbers on the stack, one of which is taken off and one joined with the
text behind it. -/
theorem evaluateText_eq_demandText_points :
    let program : Program :=
      { code := [.push (.number 2), .store "x", .pop, .load "x", .push (.string " points"), .concat 2] }
    let setting : Setting := { lookup := fun _ => none, maxRolls := none, rule := none }
    let p : Progress Stepper := { roller := { value := 1, step := 2 } }
    let q : Progress Stepper :=
      { p with
        writes := [("x", .number 2)]
        trace := { log := #[.store "x" (.number 2), .load "x" (.number 2)] } }
    Program.ofTemplate "\x7bx = 2; x\x7d points" = .ok program ∧
      Run.code 0 0 program.code [] setting p = .ok [.string "2 points"] q ∧
      ∃ s, [Value.string "2 points"] = [.string s] := by
  intro program setting p q
  have hprogram : Program.ofTemplate "\x7bx = 2; x\x7d points" = .ok program := by
    decide +kernel
  have hcode : Run.code 0 0 program.code [] setting p = .ok [.string "2 points"] q := rfl
  let ev : Evaluator Stepper := { roller := p.roller }
  obtain ⟨-, -, -, htexts⟩ :=
    ev.evaluateText_eq_demandText NoVariables.mk "\x7bx = 2; x\x7d points"
  exact ⟨hprogram, hcode, htexts program hprogram setting p q _ hcode⟩

end Evaluator
end Tabletop
