import Tabletop.Console
import Tabletop.Proofs.Evaluator.Calls
import Tabletop.Proofs.Evaluator.OneSided

/-!
# Sessions of the console

A session is looked at line by line: each line is a `Turn`, with what its evaluation gave and the reply to
it.  A line that fails leaves nothing behind but dice that were thrown, and where all dice have one side,
this is nothing at all.  So the lines that succeed would have done the same in a session of their own.
-/

namespace Tabletop.Console

/-! ## What a line asks for -/

namespace Command

/-- The request that a command makes, unless it asks for nothing. -/
def request? : Command → Option Request
  | nothing => none
  | template body => some (.template body)
  | script source bigFail => some (.value source bigFail)

/-- The result block that is printed for an evaluation. -/
def block : Command → Evaluation → String
  | nothing, _ => ""
  | template _, e => resultText e.value.text e.trace
  | script _ _, e => evaluationText e

/-- A command throws no die with more than one side. -/
def isOneSided (command : Command) : Bool :=
  command.request?.all Request.isOneSided

end Command

/-- A line of a session: what it evaluates to, unless it is blank, and the reply to it. -/
structure Turn where
  text : String
  result : Option (Except Failure Evaluation)
  reply : Reply

namespace Turn

/-- The line is evaluated, and the evaluation succeeds. -/
def succeeds (turn : Turn) : Bool :=
  turn.result.any Except.isOk

/-- A blank line has no reply.  An evaluation that fails is reported by one message, and nothing is printed
for it.  The result of one that succeeds is printed, and nothing is reported. -/
def IsReplied (turn : Turn) : Prop :=
  turn.reply =
    match turn.result with
    | none => {}
    | some (.error why) => { reported := "Error: " ++ why.message ++ "\n" }
    | some (.ok e) => { printed := (Command.ofLine turn.text).block e }

end Turn

variable {ρ σ : Type}

theorem conclude_map {α β : Type} (print : β → String) (f : α → β) (a : Answer ρ Variables α) :
    conclude print (a.map f) = conclude (fun x => print (f x)) a := by
  obtain ⟨result, roller, vars⟩ := a
  cases result <;> rfl

section

variable [Roller ρ]

/-- What the request of a line gives, unless the line is blank. -/
def answer? (c : Console ρ) (text : String) : Option (Answer ρ Variables Evaluation) :=
  (Command.ofLine text).request?.map fun request => request.evaluation { roller := c.roller } c.vars

/-- The turn of a line. -/
def turn (c : Console ρ) (text : String) : Turn :=
  { text, result := (c.answer? text).map Answer.result, reply := (c.line text).2 }

/-- The session after some lines. -/
def after (c : Console ρ) (lines : List String) : Console ρ :=
  lines.foldl (fun c text => (c.line text).1) c

/-- The turns of some lines, one after the other. -/
def turns (c : Console ρ) : List String → List Turn
  | [] => []
  | text :: rest => c.turn text :: (c.line text).1.turns rest

/-! ## One line -/

/-- A line does what its request says. -/
theorem line_eq (c : Console ρ) (text : String) :
    c.line text =
      match c.answer? text with
      | none => (c, {})
      | some a => conclude (Command.ofLine text).block a := by
  rw [line, answer?]
  cases Command.ofLine text with
  | nothing => rfl
  | template body => exact conclude_map _ _ _
  | script source bigFail => rfl

theorem isReplied_turn (c : Console ρ) (text : String) : (c.turn text).IsReplied := by
  rw [Turn.IsReplied, turn, line_eq]
  cases c.answer? text with
  | none => rfl
  | some a =>
    obtain ⟨result, roller, vars⟩ := a
    cases result <;> rfl

/-- A line that does not succeed leaves the variables alone. -/
theorem vars_line_of_not_succeeds {c : Console ρ} {text : String} (h : ¬(c.turn text).succeeds) :
    (c.line text).1.vars = c.vars := by
  rw [line_eq]
  rw [Turn.succeeds, turn, answer?] at h
  rw [answer?]
  cases hrequest : (Command.ofLine text).request? with
  | none => rfl
  | some request =>
    rw [hrequest] at h
    show (request.evaluation { roller := c.roller } c.vars).context = c.vars
    cases hresult : (request.evaluation { roller := c.roller } c.vars).result with
    | error why => exact Request.context_of_error hresult
    | ok e =>
      refine absurd ?_ h
      show Except.isOk (request.evaluation { roller := c.roller } c.vars).result = true
      rw [hresult]
      rfl

theorem isReplied_of_mem_turns (c : Console ρ) (lines : List String) :
    ∀ turn ∈ c.turns lines, turn.IsReplied := by
  induction lines generalizing c with
  | nil => nofun
  | cons text rest ih => exact List.forall_mem_cons.2 ⟨c.isReplied_turn text, ih _⟩

/-! ## All that is printed and reported -/

/-- A prompt stands before each line, and one after the last. -/
theorem run_eq (c : Console ρ) (lines : List String) :
    c.run lines =
      { printed := String.join ((c.turns lines).map fun turn => prompt ++ turn.reply.printed) ++ prompt
        reported := String.join ((c.turns lines).map fun turn => turn.reply.reported) } := by
  induction lines generalizing c with
  | nil => rfl
  | cons text rest ih =>
    rw [run, turns]
    dsimp only
    rw [ih]
    simp only [List.map_cons, String.join_cons, String.append_assoc]
    rfl

end

/-! ## Dice with one side -/

variable [WordSource ρ] [WordSource σ]

/-- The roller makes no difference to a line whose dice have one side. -/
theorem line_withRoller (c : Console ρ) {text : String} (h : (Command.ofLine text).isOneSided)
    (roller : σ) :
    (Console.mk roller c.vars).turn text = c.turn text ∧
      ((Console.mk roller c.vars).line text).1.vars = (c.line text).1.vars := by
  rw [turn, turn, line_eq, line_eq, answer?, answer?]
  rw [Command.isOneSided] at h
  cases hrequest : (Command.ofLine text).request? with
  | none => exact ⟨rfl, rfl⟩
  | some request =>
    rw [hrequest] at h
    obtain ⟨hresult, hcontext⟩ :=
      Request.evaluation_withRoller h ({ roller := c.roller } : Evaluator ρ) roller c.vars
    refine ⟨?_, hcontext⟩
    simp only [Option.map_some, conclude]
    rw [show (request.evaluation { roller } c.vars).result = _ from hresult]

/-- The lines that succeed do the same without the others.  The induction is on the lines. -/
theorem turns_filter_succeeds (c : Console ρ) (roller : σ) (lines : List String)
    (hsides : ∀ text ∈ lines, (Command.ofLine text).isOneSided) :
    let kept := (c.turns lines).filter Turn.succeeds
    (Console.mk roller c.vars).turns (kept.map Turn.text) = kept ∧
      ((Console.mk roller c.vars).after (kept.map Turn.text)).vars = (c.after lines).vars := by
  induction lines generalizing c roller with
  | nil => exact ⟨rfl, rfl⟩
  | cons text rest ih =>
    obtain ⟨hfirst, hrest⟩ := List.forall_mem_cons.1 hsides
    intro kept
    by_cases hsucceeds : (c.turn text).succeeds
    · have hkept : kept = c.turn text :: ((c.line text).1.turns rest).filter Turn.succeeds :=
        List.filter_cons_of_pos hsucceeds
      obtain ⟨hturn, hvars⟩ := c.line_withRoller hfirst roller
      obtain ⟨hturns, hafter⟩ :=
        ih (c.line text).1 ((Console.mk roller c.vars).line text).1.roller hrest
      rw [← hvars] at hturns hafter
      rw [hkept, List.map_cons]
      refine ⟨?_, hafter⟩
      show (Console.mk roller c.vars).turn text :: _ = _
      rw [hturn]
      exact congrArg (c.turn text :: ·) hturns
    · have hkept : kept = ((c.line text).1.turns rest).filter Turn.succeeds :=
        List.filter_cons_of_neg hsucceeds
      rw [hkept, ← vars_line_of_not_succeeds hsucceeds]
      exact ih (c.line text).1 roller hrest

/-- Whatever the lines of a session are, if all their dice have one side: the output is that of the turns,
each of which is replied to as its result demands, with a single message for an evaluation that fails.  If
the lines that are blank or fail are left out, the others have the same results and replies as before, and
lead to the same variables, whatever the roller is. -/
theorem run_without_failures (c : Console ρ) (roller : σ) (lines : List String)
    (hsides : ∀ text ∈ lines, (Command.ofLine text).isOneSided) :
    let turns := c.turns lines
    let kept := turns.filter Turn.succeeds
    c.run lines =
      { printed := String.join (turns.map fun turn => prompt ++ turn.reply.printed) ++ prompt
        reported := String.join (turns.map fun turn => turn.reply.reported) } ∧
    (∀ turn ∈ turns, turn.IsReplied) ∧
    (Console.mk roller c.vars).turns (kept.map Turn.text) = kept ∧
    ((Console.mk roller c.vars).after (kept.map Turn.text)).vars = (c.after lines).vars := by
  intro turns kept
  exact ⟨c.run_eq lines, c.isReplied_of_mem_turns lines, c.turns_filter_succeeds roller lines hsides⟩

/-- Of an assignment, a line that fails and a blank line, the assignment is kept. -/
theorem run_without_failures_cycle :
    let c : Console Cycle := { roller := { words := #[] } }
    let other : Console Cycle := { roller := { words := #[7] } }
    let lines := ["x=d1", "y", " "]
    (∀ text ∈ lines, (Command.ofLine text).isOneSided) ∧
      ((c.turns lines).filter Turn.succeeds).map Turn.text = ["x=d1"] ∧
      other.turns ["x=d1"] = (c.turns lines).filter Turn.succeeds := by
  intro c other lines
  have hassign : Command.ofLine "x=d1" = .script "x=d1" false := by decide
  have hfail : Command.ofLine "y" = .script "y" false := by decide
  have hblank : Command.ofLine " " = .nothing := by decide
  have hsides : ∀ text ∈ lines, (Command.ofLine text).isOneSided := by
    simp only [lines, List.forall_mem_cons, hassign, hfail, hblank]
    exact ⟨by decide +kernel, by decide +kernel, by decide +kernel, nofun⟩
  have hfirst : (c.turn "x=d1").succeeds := by
    simp only [c, Turn.succeeds, turn, answer?, hassign]
    decide +kernel
  have hsecond : ((c.line "x=d1").1.turn "y").succeeds = false := by
    simp only [c, Turn.succeeds, turn, answer?, line, hassign, hfail, conclude]
    decide +kernel
  have hthird : ∀ later : Console Cycle, (later.turn " ").succeeds = false := by
    intro later
    rw [Turn.succeeds, turn, answer?, hblank]
    rfl
  have hkept : (c.turns lines).filter Turn.succeeds = [c.turn "x=d1"] := by
    simp only [lines, turns, List.filter_cons, hfirst, hsecond, hthird, if_true, Bool.false_eq_true,
      if_false, List.filter_nil]
  have hturns := (c.run_without_failures ({ words := #[7] } : Cycle) lines hsides).2.2.1
  rw [hkept] at hturns ⊢
  exact ⟨hsides, rfl, hturns⟩

end Tabletop.Console
