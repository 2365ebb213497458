import Tabletop.Evaluator
import Tabletop.Proofs.Script.Joining

/-!
# Templates and backticks

A text is filled in as a template, or it is put between backticks and evaluated as a script that is a single
template.  This is the same, except that the faults of the script are one byte further on.
-/

namespace Tabletop

open Text

/-! ## Programs -/

theorem Program.ofSource_backticked {s : String} (hs : templateMark ∉ s.toList) :
    ofSource (String.ofList (backticked s.toList)) =
      (ofTemplate s).mapError (SyntaxError.shift 1) := by
  rw [ofSource, ofTemplate, Script.ofSource_backticked hs, mapError_map]

/-! ## Evaluation -/

/-- The same failure; a fault of the source text is `n` bytes further on. -/
def Failure.shift (n : Nat) : Failure → Failure
  | script why => script (why.shift n)
  | run why => run why
  | wrongType expected found => wrongType expected found

/-- The same answer; a fault of the source text is `n` bytes further on. -/
def Answer.shift {ρ γ α : Type} (n : Nat) (a : Answer ρ γ α) : Answer ρ γ α :=
  { a with result := a.result.mapError (Failure.shift n) }

theorem Answer.map_shift {ρ γ α β : Type} (n : Nat) (f : α → β) (a : Answer ρ γ α) :
    (a.shift n).map f = (a.map f).shift n := by
  simp only [map, shift, mapError_map]

section

variable {ρ γ : Type} [Roller ρ] [Context γ]

/-- Faults that are not of the source text have no bytes. -/
theorem Evaluator.shift_run (n : Nat) (ev : Evaluator ρ) (program : Program) (context : γ)
    (bigFail : Bool) (expected : Option ValueType) :
    (ev.run program context bigFail expected).shift n = ev.run program context bigFail expected := by
  unfold run perform
  split
  · rfl
  · dsimp only
    split
    · rfl
    · split <;> rfl

theorem Evaluator.runRead_mapError (n : Nat) (ev : Evaluator ρ) (program : Except SyntaxError Program)
    (context : γ) (bigFail : Bool) (expected : Option ValueType) :
    ev.runRead (program.mapError (SyntaxError.shift n)) context bigFail expected =
      (ev.runRead program context bigFail expected).shift n := by
  cases program with
  | error why => rfl
  | ok program => exact (ev.shift_run n program context bigFail expected).symm

end

/-- A text without backticks is compiled as a template to the program that it is compiled to between
backticks, or both have the same fault, which between backticks is one byte further on.  So filling it in
and evaluating it between backticks gives the same text and trace or the same failure, and leaves the same
roller and the same context behind. -/
theorem Evaluator.fillTemplate_backticked {s : String} (hs : templateMark ∉ s.toList) :
    Program.ofSource ("\x60" ++ s ++ "\x60") = (Program.ofTemplate s).mapError (SyntaxError.shift 1) ∧
    ∀ {ρ γ : Type} [Roller ρ] [Context γ] (ev : Evaluator ρ) (context : γ),
      ev.evaluateText ("\x60" ++ s ++ "\x60") context = (ev.fillTemplate s context).shift 1 := by
  have htext : "\x60" ++ s ++ "\x60" = String.ofList (backticked s.toList) := by
    rw [← String.toList_inj]
    simp [backticked, templateMark]
  have hprogram := Program.ofSource_backticked hs
  rw [htext]
  refine ⟨hprogram, fun ev context => ?_⟩
  rw [evaluateText, fillTemplate, hprogram, runRead_mapError, Answer.map_shift]

/-- Empty braces are found one byte further on between backticks. -/
theorem Evaluator.fillTemplate_backticked_blank :
    templateMark ∉ "a\x7b\x7d".toList ∧
    Program.ofSource ("\x60" ++ "a\x7b\x7d" ++ "\x60") =
      .error { cause := .emptyInterpolation, start := 2, stop := 4, slice := "\x7b\x7d" } := by
  have hmark : templateMark ∉ "a\x7b\x7d".toList := by decide
  have hfault : Program.ofTemplate "a\x7b\x7d" =
      .error { cause := .emptyInterpolation, start := 1, stop := 3, slice := "\x7b\x7d" } := by
    decide +kernel
  refine ⟨hmark, ?_⟩
  rw [(fillTemplate_backticked hmark).1, hfault]
  rfl

end Tabletop
