import Tabletop.Program.Lowering
import Tabletop.Proofs.Run.Execution
import Tabletop.Run.Meaning

/-!
# Compiled programs compute what scripts mean

The program of a script, run on the machine, is the same computation as the evaluation of the script on
its tree.  Both are functions of a setting and of the progress made so far, so the equality covers the
result or the error, the roller, the dice counted, the assignments, the trace and the big-fail mark.

The statement that carries the induction is about a segment of code in its place: the instructions of
an expression, followed by any `rest` and run on any stack, are the evaluation of the expression followed
by `rest` with the value on top of that stack.  The first part says how the machine passes a segment that
a jump leaves out; the second has one lemma for each kind of tree.
-/

namespace Tabletop

variable {ρ : Type} [Roller ρ]

namespace Run

/-! ## Jumps over a segment of code -/

theorem code_cons (here : Nat) (i : Instruction) (rest : List Instruction) (stack : List Value) :
    (code here 0 (i :: rest) stack : Run ρ (List Value))
      = step here i stack >>= fun after => code (here + 1) after.2 rest after.1 :=
  rfl

theorem code_roll {term : DiceTerm} {setting : Setting} {p q : Progress ρ} {v : Value}
    (h : rollDice term setting p = .ok v q) (here : Nat) (rest : List Instruction) (stack : List Value) :
    code here 0 (.roll term :: rest) stack setting p = code (here + 1) 0 rest (v :: stack) setting q := by
  rw [code_cons, bind_apply, step, bind_apply, h]
  rfl

/-- A segment that is left out costs nothing but its places. -/
theorem code_leave_out (here : Nat) (segment rest : List Instruction) (stack : List Value) :
    code here segment.length (segment ++ rest) stack
      = (code (here + segment.length) 0 rest stack : Run ρ (List Value)) := by
  rw [code_skip, List.drop_left]

omit [Roller ρ] in
theorem jumpTo_of_lt {here target : Nat} (h : here < target) (stack : List Value) :
    (jumpTo here target stack : Run ρ Outcome) = pure (stack, target - (here + 1)) := by
  rw [jumpTo, if_neg (by omega)]

/-- A jump to the end of a segment leaves the segment out. -/
theorem code_jump {here target : Nat} {segment : List Instruction}
    (htarget : target = here + 1 + segment.length) (rest : List Instruction) (stack : List Value) :
    code here 0 (.jump target :: (segment ++ rest)) stack
      = (code target 0 rest stack : Run ρ (List Value)) := by
  have hskip : target - (here + 1) = segment.length := by omega
  rw [code_cons, step, jumpTo_of_lt (by omega), pure_bind, hskip, code_leave_out, htarget]

theorem code_jumpUnless {here target : Nat} {segment : List Instruction}
    (htarget : target = here + 1 + segment.length) (rest : List Instruction) (v : Value)
    (stack : List Value) :
    code here 0 (.jumpUnless target :: (segment ++ rest)) (v :: stack)
      = (if v.truthy then code (here + 1) 0 (segment ++ rest) stack
          else code target 0 rest stack : Run ρ (List Value)) := by
  have hskip : target - (here + 1) = segment.length := by omega
  rw [code_cons, step]
  split
  · rw [pure_bind]
  · rw [jumpTo_of_lt (by omega), pure_bind, hskip, code_leave_out, htarget]

theorem code_jumpIf {here target : Nat} {segment : List Instruction}
    (htarget : target = here + 1 + segment.length) (rest : List Instruction) (v : Value)
    (stack : List Value) :
    code here 0 (.jumpIf target :: (segment ++ rest)) (v :: stack)
      = (if v.truthy then code target 0 rest stack
          else code (here + 1) 0 (segment ++ rest) stack : Run ρ (List Value)) := by
  have hskip : target - (here + 1) = segment.length := by omega
  rw [code_cons, step]
  split
  · rw [jumpTo_of_lt (by omega), pure_bind, hskip, code_leave_out, htarget]
  · rw [pure_bind]

/-- The jump of a connective is taken exactly if its first operand decides. -/
theorem code_shortcut (op : LogicalOperator) {here target : Nat} {segment : List Instruction}
    (htarget : target = here + 1 + segment.length) (rest : List Instruction) (v : Value)
    (stack : List Value) :
    code here 0 (op.shortcut target :: (segment ++ rest)) (v :: stack)
      = (if op.undecided v then code (here + 1) 0 (segment ++ rest) stack
          else code target 0 rest stack : Run ρ (List Value)) := by
  cases op with
  | and => exact code_jumpUnless htarget rest v stack
  | or =>
    rw [LogicalOperator.shortcut, code_jumpIf htarget, LogicalOperator.undecided]
    cases v.truthy <;> rfl

/-- A first operand that decides is followed by the value it decides on; otherwise the second operand is
reached. -/
theorem code_logical (op : LogicalOperator) {here decided stop : Nat} {second : List Instruction}
    (hdecided : decided = here + 1 + second.length + 2) (hstop : stop = decided + 1)
    (rest : List Instruction) (l : Value) (stack : List Value) :
    code here 0
        (op.shortcut decided :: (second ++ .truthy :: .jump stop :: .push op.decided :: rest))
        (l :: stack)
      = (if op.undecided l then
            code (here + 1) 0 (second ++ .truthy :: .jump stop :: .push op.decided :: rest) stack
          else code stop 0 rest (op.decided :: stack) : Run ρ (List Value)) := by
  have hsegment : second ++ .truthy :: .jump stop :: .push op.decided :: rest
      = (second ++ [.truthy, .jump stop]) ++ .push op.decided :: rest := by
    rw [List.append_assoc]
    rfl
  have hlength : (second ++ [Instruction.truthy, .jump stop]).length = second.length + 2 := by
    rw [List.length_append]
    rfl
  rw [hsegment, code_shortcut op (by omega), code_cons decided, step, pure_bind, hstop]

/-- A condition that is false leaves out the first branch and the jump behind it. -/
theorem code_conditional {here otherwise stop : Nat} {yes : List Instruction}
    (hotherwise : otherwise = here + 1 + yes.length + 1) (rest : List Instruction) (c : Value)
    (stack : List Value) :
    code here 0 (.jumpUnless otherwise :: (yes ++ .jump stop :: rest)) (c :: stack)
      = (if c.truthy then code (here + 1) 0 (yes ++ .jump stop :: rest) stack
          else code otherwise 0 rest stack : Run ρ (List Value)) := by
  have hsegment : yes ++ .jump stop :: rest = (yes ++ [.jump stop]) ++ rest := by
    rw [List.append_assoc]
    rfl
  have hlength : (yes ++ [Instruction.jump stop]).length = yes.length + 1 := by
    rw [List.length_append]
    rfl
  rw [hsegment, code_jumpUnless (by omega)]

/-- The texts of the topmost values are joined in the order in which they were put on the stack. -/
theorem code_concat (here : Nat) (values stack : List Value) (rest : List Instruction) :
    code here 0 (.concat values.length :: rest) (values.reverse ++ stack)
      = (code (here + 1) 0 rest (.string (String.join (values.map Value.text)) :: stack) :
          Run ρ (List Value)) := by
  have henough : ¬(values.reverse ++ stack).length < values.length := by
    rw [List.length_append, List.length_reverse]
    omega
  have htake : (values.reverse ++ stack).take values.length = values.reverse :=
    List.take_left' (List.length_reverse)
  have hdrop : (values.reverse ++ stack).drop values.length = stack :=
    List.drop_left' (List.length_reverse)
  rw [code_cons, step, if_neg henough, htake, hdrop, List.reverse_reverse, pure_bind]

end Run

/-- A first operand that decides gives the value that the connective puts in its place. -/
theorem LogicalOperator.decided_eq {op : LogicalOperator} {v : Value} (h : ¬op.undecided v) :
    op.decided = .ofBool v.truthy := by
  cases op <;> simp_all [undecided, decided]

/-! ## The instructions of a tree -/

mutual

/-- The instructions of an expression put its value on the stack and go on behind themselves. -/
theorem Expr.code_lower (e : Expr) (here : Nat) (rest : List Instruction) (stack : List Value) :
    Run.code here 0 (e.lower here ++ rest) stack
      = (e.eval >>= fun v => Run.code (here + (e.lower here).length) 0 rest (v :: stack) :
          Run ρ (List Value)) := by
  match e with
  | .number x =>
    rw [Expr.eval, pure_bind]
    rfl
  | .string s =>
    rw [Expr.eval, pure_bind]
    rfl
  | .dice term =>
    rw [Expr.lower, Expr.eval, List.singleton_append, Run.code_cons, Run.step, bind_assoc]
    simp only [pure_bind, List.length_singleton]
  | .name name =>
    rw [Expr.lower, Expr.eval, List.singleton_append, Run.code_cons, Run.step, bind_assoc]
    simp only [pure_bind, List.length_singleton]
  | .template segments =>
    have hsegments := Segment.code_lowerAll segments here [] rest stack
    rw [List.length_nil, Nat.zero_add, List.reverse_nil, List.nil_append] at hsegments
    rw [Expr.lower, Expr.eval, List.append_assoc, List.singleton_append, hsegments]
    simp only [List.nil_append, List.length_append, List.length_singleton, bind_assoc, pure_bind,
      Nat.add_assoc]
  | .paren inner => rw [Expr.lower, Expr.eval, Expr.code_lower inner]
  | .unary op operand =>
    rw [Expr.lower, Expr.eval, List.append_assoc, Expr.code_lower operand]
    simp only [List.singleton_append, Run.code_cons, Run.step, bind_assoc, pure_bind,
      List.length_append, List.length_singleton, Nat.add_assoc]
  | .binary left op right =>
    rw [Expr.lower, Expr.eval, List.append_assoc, List.append_assoc, Expr.code_lower left]
    simp only [Expr.code_lower right, List.singleton_append, Run.code_cons, Run.step, bind_assoc,
      pure_bind, List.length_append, List.length_singleton, Nat.add_assoc]
  | .logical left op right =>
    rw [Expr.lower, Expr.eval]
    simp only [List.append_assoc, List.cons_append, List.nil_append, List.length_append,
      List.length_cons, List.length_nil]
    rw [Expr.code_lower left, bind_assoc]
    congr 1
    funext l
    rw [Run.code_logical op (by omega) (by omega)]
    split
    · rw [Expr.code_lower right, bind_assoc]
      congr 1
      funext r
      rw [Run.code_cons, Run.step, pure_bind, ← List.singleton_append (l := rest),
        Run.code_jump (by rw [List.length_singleton]), pure_bind]
      congr 1
      omega
    · rename_i hdecided
      rw [LogicalOperator.decided_eq hdecided, pure_bind]
      congr 1
      omega
  | .conditional condition consequent alternative =>
    rw [Expr.lower, Expr.eval]
    simp only [List.append_assoc, List.cons_append, List.length_append, List.length_cons]
    rw [Expr.code_lower condition, bind_assoc]
    congr 1
    funext c
    rw [Run.code_conditional (by omega)]
    split
    · rw [Expr.code_lower consequent]
      congr 1
      funext v
      rw [Run.code_jump (by omega)]
      congr 1
      omega
    · rw [Expr.code_lower alternative]
      congr 1
      funext v
      congr 1
      omega
  | .assign name value =>
    rw [Expr.lower, Expr.eval, List.append_assoc, Expr.code_lower value]
    simp only [List.singleton_append, Run.code_cons, Run.step, bind_assoc, pure_bind,
      List.length_append, List.length_singleton, Nat.add_assoc]

/-- The instructions of a piece of a template put its value on the stack. -/
theorem Segment.code_lower (s : Segment) (here : Nat) (rest : List Instruction)
    (stack : List Value) :
    Run.code here 0 (s.lower here ++ rest) stack
      = (s.eval >>= fun v => Run.code (here + (s.lower here).length) 0 rest (v :: stack) :
          Run ρ (List Value)) := by
  match s with
  | .text s =>
    rw [Segment.eval, pure_bind]
    rfl
  | .code script => rw [Segment.lower, Segment.eval, Script.code_lower script]

/-- The instructions of the pieces of a template, after those that left the values `done`, put all values
on the stack for the instruction that joins them. -/
theorem Segment.code_lowerAll (segments : List Segment) (here : Nat) (done : List Value)
    (rest : List Instruction) (stack : List Value) :
    Run.code here 0
        (Segment.lowerAll here segments ++ .concat (done.length + segments.length) :: rest)
        (done.reverse ++ stack)
      = (Segment.evalAll segments >>= fun values =>
          Run.code (here + (Segment.lowerAll here segments).length + 1) 0 rest
            (.string (String.join ((done ++ values).map Value.text)) :: stack) :
          Run ρ (List Value)) := by
  match segments with
  | [] =>
    rw [Segment.lowerAll, Segment.evalAll, pure_bind, List.append_nil]
    exact Run.code_concat here done stack rest
  | segment :: segments =>
    rw [Segment.lowerAll, Segment.evalAll, List.append_assoc, Segment.code_lower segment, bind_assoc]
    congr 1
    funext v
    have hmore := Segment.code_lowerAll segments (here + (segment.lower here).length)
      (done ++ [v]) rest stack
    rw [List.reverse_append, List.reverse_singleton, List.singleton_append, List.cons_append,
      List.length_append, List.length_singleton, Nat.add_assoc, Nat.add_comm 1] at hmore
    rw [List.length_cons, hmore]
    simp only [bind_assoc, pure_bind, List.length_append, List.append_assoc, List.singleton_append,
      Nat.add_assoc]

/-- The instructions of a script put the value of its last expression on the stack. -/
theorem Script.code_lower (s : Script) (here : Nat) (rest : List Instruction) (stack : List Value) :
    Run.code here 0 (s.lower here ++ rest) stack
      = (s.eval >>= fun v => Run.code (here + (s.lower here).length) 0 rest (v :: stack) :
          Run ρ (List Value)) := by
  match s with
  | .mk first later =>
    rw [Script.lower, Script.eval, List.append_assoc, Expr.code_lower first]
    simp only [Script.code_lowerRest later, bind_assoc, List.length_append, Nat.add_assoc]

/-- The instructions of the expressions after one with the value `v` take that value off the stack. -/
theorem Script.code_lowerRest (later : List Expr) (here : Nat) (v : Value) (rest : List Instruction)
    (stack : List Value) :
    Run.code here 0 (Script.lowerRest here later ++ rest) (v :: stack)
      = (Script.evalRest v later >>= fun v =>
          Run.code (here + (Script.lowerRest here later).length) 0 rest (v :: stack) :
          Run ρ (List Value)) := by
  match later with
  | [] =>
    rw [Script.evalRest, pure_bind]
    rfl
  | e :: later =>
    rw [Script.lowerRest, Script.evalRest, List.cons_append, List.cons_append, List.append_assoc,
      Run.code_cons, Run.step, pure_bind, Expr.code_lower e]
    simp only [Script.code_lowerRest later, bind_assoc, List.length_cons, List.length_append,
      Nat.add_assoc, Nat.add_comm 1]

end

/-! ## Whole programs -/

/-- The program of a script leaves the value of the script on the stack and nothing under it. -/
theorem Run.code_compile (script : Script) :
    (Run.code 0 0 script.compile.code [] : Run ρ (List Value))
      = script.eval >>= fun v => pure [v] := by
  have hcode := Script.code_lower (ρ := ρ) script 0 [] []
  rw [List.append_nil] at hcode
  exact hcode

theorem Run.program_compile (script : Script) :
    (Run.program script.compile : Run ρ Value) = script.eval := by
  rw [Run.program, Run.code_compile, bind_assoc]
  simp only [pure_bind, bind_pure]

/-- Running the program of a script and evaluating the script on its tree are the same computation: from
every setting and every progress both give the same value or stop with the same error, and both leave the
same roller, count of dice, assignments, trace and big-fail mark. -/
theorem Script.program_compile_eq_eval (script : Script) (setting : Setting) (p : Progress ρ) :
    Run.program script.compile setting p = script.eval setting p := by
  rw [Run.program_compile]

end Tabletop
