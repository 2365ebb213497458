import Tabletop.Proofs.Evaluator.Answers
import Tabletop.Proofs.Program.Meaning
import Tabletop.Proofs.Program.Names

/-!
# Evaluations show all of their traces

An evaluation of a compiled program shows a text for its trace, and the trace can be told from the text: what
was rolled, computed, loaded and stored, with every mark and every value
(`Evaluator.detail_determines_trace`).
-/

namespace Tabletop

/-- The names in the trace of an evaluation are those of a program that was compiled. -/
theorem Evaluator.named_of_run_ok {ρ γ : Type} [Roller ρ] [Context γ] {ev : Evaluator ρ} {context : γ}
    {program : Program} (hcompiled : program.Compiled) {bigFail : Bool} {expected : Option ValueType}
    {e : Evaluation} (he : (ev.run program context bigFail expected).result = .ok e) :
    ∀ step ∈ e.trace.steps, step.Named := by
  obtain ⟨q, hrun, -, htrace, -⟩ := run_ok he
  rw [htrace]
  exact Run.named_of_program_ok hrun hcompiled.allNamed

/-- Two evaluations of programs that were compiled from texts have the same trace if they show the same text for
it, whatever the rollers, the contexts and the programs are, and whatever characters the texts among the values
have. -/
theorem Evaluator.detail_determines_trace {ρ ρ' γ γ' : Type} [Roller ρ] [Roller ρ'] [Context γ]
    [Context γ'] (ev : Evaluator ρ) (ev' : Evaluator ρ') (context : γ) (context' : γ')
    {program program' : Program} (hcompiled : program.Compiled) (hcompiled' : program'.Compiled)
    {bigFail bigFail' : Bool} {expected expected' : Option ValueType} {e e' : Evaluation}
    (he : (ev.run program context bigFail expected).result = .ok e)
    (he' : (ev'.run program' context' bigFail' expected').result = .ok e')
    (hdetail : e.detail = e'.detail) : e.trace = e'.trace :=
  Trace.eq_of_text_eq (named_of_run_ok hcompiled he) (named_of_run_ok hcompiled' he') hdetail

/-- The same dice are thrown for a number and inside a template. -/
theorem Evaluator.detail_determines_trace_template :
    let ev : Evaluator Stepper := { roller := { value := 2, step := 3 } }
    ∃ program program' e e',
      Program.ofSource "2d6kl - -3" = .ok program ∧
      Program.ofTemplate "The dice give \x7b2d6kl1 - -3\x7d." = .ok program' ∧
      (ev.run program NoVariables.mk true none).result = .ok e ∧
      (ev.run program' (∅ : Variables) false (some .string)).result = .ok e' ∧
      e.value = .number 5 ∧ e'.value = .string "The dice give 5." ∧
      e.detail = "2d6kl1=[2,(5)]=2, -3=-3, 2--3=5" ∧ e.detail = e'.detail ∧ e.trace = e'.trace := by
  intro ev
  let term : DiceTerm :=
    ⟨⟨2, by decide, by decide⟩, .poly ⟨6, by decide, by decide⟩, some (.keep (.lowest 1))⟩
  let dice : List Instruction :=
    [.roll term, .push (.number 3), .unary .minus, .binary (.arithmetic .sub)]
  let program : Program := { code := dice }
  let program' : Program :=
    { code := .push (.string "The dice give ") :: dice ++ [.push (.string "."), .concat 3] }
  let faces : List Face := [{ value := 2 }, { value := 5, dropped := true }]
  let trace : Trace :=
    { log := #[.roll term faces 2, .unary .minus (.number 3) (.number (-3)),
        .binary (.number 2) (.arithmetic .sub) (.number (-3)) (.number 5)] }
  let q : Progress Stepper := { roller := { value := 8, step := 3 }, rolled := 2, trace }
  have hsource : Program.ofSource "2d6kl - -3" = .ok program := by decide +kernel
  have htemplate : Program.ofTemplate "The dice give \x7b2d6kl1 - -3\x7d." = .ok program' := by
    decide +kernel
  -- the lower of the two faces is the first
  have hsorted : [((2 : Int), 0), (5, 1)].Pairwise fun a b => (Selector.lowest 1).ranks a.1 b.1 := by
    decide
  have hranking : (Selector.lowest 1).ranking [2, 5] = [0, 1] :=
    congrArg (List.map Prod.snd) (List.mergeSort_of_pairwise hsorted)
  have hdropped : (Modifier.keep (.lowest 1)).dropped [2, 5] = [false, true] := by
    rw [Modifier.dropped, Modifier.selector, Selector.picked, hranking]
    rfl
  have hthrown : (Roller.rollMany 2 term.sides.faces ev.roller).1 = [2, 5] := by decide
  have hfaces : ∀ rule ∈ [none, some BigFailRule.maxFace], term.facesFrom rule ev.roller = faces := by
    intro rule hrule
    rw [DiceTerm.facesFrom, hthrown]
    show (List.zip [(2 : Int), 5] ((Modifier.keep (.lowest 1)).dropped [2, 5])).map _ = _
    rw [hdropped]
    rcases List.mem_pair.1 hrule with rfl | rfl <;> rfl
  have hrun : Run.program program (ev.setting NoVariables.mk true) { roller := ev.roller } =
      .ok (.number 5) q := by
    have hroll : Run.rollDice term (ev.setting NoVariables.mk true) { roller := ev.roller } =
        .ok (.number 2) _ :=
      Run.rollDice_of_faces (by decide) (hfaces _ (List.mem_pair.2 (.inr rfl))) rfl rfl
    rw [Run.program_apply, Run.code_roll hroll]
    rfl
  have hrun' : Run.program program' (ev.setting (∅ : Variables) false) { roller := ev.roller } =
      .ok (.string "The dice give 5.") q := by
    have hroll : Run.rollDice term (ev.setting (∅ : Variables) false) { roller := ev.roller } =
        .ok (.number 2) _ :=
      Run.rollDice_of_faces (by decide) (hfaces _ (List.mem_pair.2 (.inl rfl))) rfl rfl
    have hcode : Run.code 0 0 program'.code [] (ev.setting (∅ : Variables) false)
        { roller := ev.roller } = .ok [.string "The dice give 5."] q := by
      show Run.code 1 0 (.roll term :: _) [.string "The dice give "] _ _ = _
      rw [Run.code_roll hroll]
      rfl
    rw [Run.program_apply, hcode]
  have he : (ev.run program NoVariables.mk true none).result =
      .ok { value := .number 5, trace, bigFail := false } := by
    have hany : ∀ type ∈ (none : Option ValueType), (Value.number 5).type = type :=
      fun type htype => absurd htype (Option.not_mem_none type)
    rw [run_of_ok hrun hany]
    rfl
  have he' : (ev.run program' (∅ : Variables) false (some .string)).result =
      .ok { value := .string "The dice give 5.", trace, bigFail := false } := by
    have htype : ∀ type ∈ some ValueType.string, (Value.string "The dice give 5.").type = type :=
      fun _ h => Option.some.inj h
    rw [run_of_ok hrun' htype]
    rfl
  have hdetail : trace.text = "2d6kl1=[2,(5)]=2, -3=-3, 2--3=5" := by decide +kernel
  exact ⟨program, program', _, _, hsource, htemplate, he, he', rfl, rfl, hdetail, rfl,
    detail_determines_trace ev ev _ _ ⟨_, .inl hsource⟩ ⟨_, .inr htemplate⟩ he he' rfl⟩

end Tabletop
