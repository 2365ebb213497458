import Tabletop.Proofs.Evaluator.Answers
import Tabletop.Proofs.Run.Dice

/-!
# Totals under a limit

The faces of a roll are added one after the other, and the sum is checked each time.  Faces are not below
zero, so no check on the way fails unless the last one does (`Face.total?_eq_ofInt?`), and a roll overflows
if and only if the exact sum is no number.

Under a limit of at most `2^31` dice it always is one, since a die has fewer than `2^32` sides: the dice that
a run has counted are within the limit at each of its rolls.
-/

namespace Tabletop

/-! ## Adding faces -/

namespace Face

/-- Adding faces that are not below zero fails only if their sum is no number. -/
theorem foldlM_eq_ofInt? {faces : List Face} {start : Number} (hstart : 0 ≤ start.toInt)
    (h : ∀ face ∈ faces, 0 ≤ face.value) :
    faces.foldlM (fun sum face => Number.ofInt? (sum.toInt + face.value)) start =
      Number.ofInt? (start.toInt + (faces.map Face.value).sum) := by
  induction faces generalizing start with
  | nil => simp
  | cons face faces ih =>
    have hface : 0 ≤ face.value := h face List.mem_cons_self
    have hrest : ∀ face ∈ faces, 0 ≤ face.value :=
      fun face hmem => h face (List.mem_cons_of_mem _ hmem)
    have hsum : 0 ≤ (faces.map Face.value).sum := by
      apply List.sum_nonneg
      simpa using hrest
    rw [List.foldlM_cons, List.map_cons, List.sum_cons, ← Int.add_assoc]
    cases hnext : Number.ofInt? (start.toInt + face.value) with
    | none =>
      -- a partial sum that is too large stays too large
      have hover := Number.ofInt?_eq_none_iff.1 hnext
      symm
      apply Number.ofInt?_eq_none_iff.2
      omega
    | some next =>
      have hnext := Number.ofInt?_eq_some_iff.1 hnext
      show faces.foldlM _ next = _
      rw [ih (by omega) hrest, hnext]

/-- The total of a roll is the exact sum of the faces that count, checked once. -/
theorem total?_eq_ofInt? {faces : List Face} (h : ∀ face ∈ kept faces, 0 ≤ face.value) :
    total? faces = Number.ofInt? ((kept faces).map Face.value).sum := by
  show (kept faces).foldlM _ (0 : Number) = _
  rw [foldlM_eq_ofInt? (by decide) h]
  congr 1
  exact Int.zero_add _

/-- So many faces of dice with so many sides have a total. -/
theorem exists_total? {faces : List Face} {sides : Nat} (hsides : sides < 2 ^ 32)
    (h : ∀ face ∈ kept faces, 1 ≤ face.value ∧ face.value ≤ sides) (hcount : faces.length ≤ 2 ^ 31) :
    ∃ total, total? faces = some total := by
  have hnonneg : ∀ face ∈ kept faces, 0 ≤ face.value := by
    intro face hface
    have hrange := h face hface
    omega
  have hsum := sum_values_bounds h
  have hkept : (kept faces).length ≤ 2 ^ 31 := (List.length_filter_le _ _).trans hcount
  have hproduct : (kept faces).length * sides ≤ 2 ^ 31 * (2 ^ 32 - 1) :=
    Nat.mul_le_mul hkept (by omega)
  rw [total?_eq_ofInt? hnonneg, ← Option.ne_none_iff_exists', Ne, Number.ofInt?_eq_none_iff]
  omega

end Face

/-! ## Rolling under a limit -/

section

variable {ρ : Type} [Roller ρ]

theorem Roller.Honest.throwAll {roller : ρ} (h : Roller.Honest roller) (terms : List DiceTerm) :
    Roller.Honest (Roller.throwAll terms roller) := by
  intro earlier
  rw [← Roller.throwAll_append]
  exact h (terms ++ earlier)

namespace Run

/-- What becomes of a roll instruction: with too many dice it is refused before one of them is thrown, and
otherwise it puts the exact sum of the faces that count on the stack, and shows it. -/
inductive RollsExactly (setting : Setting) (here : Nat) (term : DiceTerm) (stack : List Value)
    (p : Progress ρ) : Prop
  | refused {limit : Nat} (hlimit : setting.maxRolls = some limit)
    (hexceeds : limit < p.rolled + term.count.val)
    (hstep : step here (.roll term) stack setting p =
      .error (.tooManyRolls limit) { p with rolled := p.rolled + term.count.val })
  | total {total : Number}
    (hrecords : term.Records (term.facesFrom setting.rule p.roller) total)
    (hstep : step here (.roll term) stack setting p =
      .ok (.number total :: stack, 0)
        { thrown term setting p with
          trace := p.trace.push (.roll term (term.facesFrom setting.rule p.roller) total) })

theorem rollsExactly {setting : Setting} {limit : Nat} {p : Progress ρ}
    (hlimit : setting.maxRolls = some limit) (hle : limit ≤ 2 ^ 31) (hhonest : Roller.Honest p.roller)
    (here : Nat) (term : DiceTerm) (stack : List Value) : RollsExactly setting here term stack p := by
  by_cases hexceeds : limit < p.rolled + term.count.val
  · apply RollsExactly.refused hlimit hexceeds
    have hfilter : setting.maxRolls.filter (· < p.rolled + term.count.val) = some limit := by
      simpa [hlimit] using hexceeds
    rw [step, bind_apply, rollDice_apply, hfilter]
  · have hfilter : setting.maxRolls.filter (· < p.rolled + term.count.val) = none := by
      simpa [hlimit] using hexceeds
    have hlength := hhonest.length_facesFrom term setting.rule
    have hpos := term.count.pos
    obtain ⟨total, htotal⟩ := Face.exists_total? term.sides.faces.lt
      (hhonest.kept_facesFrom term setting.rule) (by omega)
    have hnonempty : (term.facesFrom setting.rule p.roller).isEmpty = false := by
      rw [List.isEmpty_eq_false_iff, ← List.length_pos_iff]
      omega
    apply RollsExactly.total (DiceTerm.records_facesFrom hhonest htotal)
    rw [step, bind_apply, rollDice_apply, hfilter, htotal, hnonempty]
    rfl

/-- An instruction that stops a run because of the dice of a term, and not because of the limit. -/
theorem Stops.not_roll {setting : Setting} {here : Nat} {i : Instruction} {stack : List Value}
    {p q : Progress ρ} {why : RunError} (h : Stops setting here i stack p why q)
    (hroll : ∀ term, i = .roll term → RollsExactly setting here term stack p)
    (hwhy : ∀ limit, why ≠ .tooManyRolls limit) : i.rolls = [] ∧ ∀ term, why ≠ .rolledNothing term := by
  cases h with
  | @roll term _ _ _ _ h =>
    have hstep : step here (.roll term) stack setting p = .error why q := by
      rw [step, bind_apply, h]
    cases hroll term rfl with
    | refused _ _ hrefused =>
      rw [hrefused] at hstep
      cases hstep
      exact absurd rfl (hwhy _)
    | total _ htotal =>
      rw [htotal] at hstep
      cases hstep
  | load h =>
    obtain ⟨rfl, _⟩ := load_error h
    refine ⟨rfl, fun term hnothing => ?_⟩
    cases hnothing
  | unary h =>
    refine ⟨rfl, ?_⟩
    rintro term rfl
    exact UnaryOperator.not_internal_of_apply (unary_error h).1 trivial
  | binary h =>
    refine ⟨rfl, ?_⟩
    rintro term rfl
    exact BinaryOperator.not_internal_of_apply (binary_error h).1 trivial
  | underflow h =>
    refine ⟨?_, fun term hnothing => by cases hnothing⟩
    cases i with
    | roll term => exact absurd h (Nat.not_lt_zero _)
    | _ => rfl
  | backward htarget h =>
    refine ⟨?_, fun term hnothing => by cases hnothing⟩
    cases i with
    | roll term => cases htarget
    | _ => rfl

end Run
end

/-! ## Evaluators with a limit -/

namespace Evaluator

variable {ρ γ : Type} [Roller ρ] [Context γ]

/-- The rolls of an evaluation do not fail but for the limit. -/
structure RollsExactly (ev : Evaluator ρ) (program : Program) (context : γ) (bigFail : Bool)
    (expected : Option ValueType) : Prop where
  /-- Each roll instruction that the run comes to is refused by the limit or gives the exact sum. -/
  reached : ∀ done here stack p term,
    Run.Reaches (ev.setting context bigFail) program.code { roller := ev.roller } done here stack p →
    program.code[here]? = some (.roll term) →
    Run.RollsExactly (ev.setting context bigFail) here term stack p
  /-- No term rolls nothing. -/
  rolledSomething : ∀ term,
    (ev.run program context bigFail expected).result ≠ .error (.run (.rolledNothing term))
  /-- An overflow comes from an instruction that is reached and is no roll. -/
  overflow : (ev.run program context bigFail expected).result = .error (.run .overflow) →
    ∃ done here stack p q i,
      Run.Reaches (ev.setting context bigFail) program.code { roller := ev.roller } done here stack p ∧
      program.code[here]? = some i ∧ i.rolls = [] ∧
      Run.Stops (ev.setting context bigFail) here i stack p .overflow q

/-- Behind an evaluation that stops with an error of its run stands a run that does. -/
theorem run_error {ev : Evaluator ρ} {program : Program} {context : γ} {bigFail : Bool}
    {expected : Option ValueType} {why : RunError}
    (h : (ev.run program context bigFail expected).result = .error (.run why)) :
    ∃ q, Run.program program (ev.setting context bigFail) { roller := ev.roller } = .error why q := by
  cases hrun : Run.program program (ev.setting context bigFail) { roller := ev.roller } with
  | error other q =>
    rw [run_of_error hrun] at h
    cases h
    exact ⟨q, rfl⟩
  | ok v q =>
    by_cases htype : ∀ type ∈ expected, v.type = type
    · rw [run_of_ok hrun htype] at h
      cases h
    · simp only [Classical.not_forall] at htype
      obtain ⟨type, rfl, hne⟩ := htype
      rw [run_of_type_ne hrun hne] at h
      cases h

/-- Under a limit of at most `2^31` dice, and with a roller that throws as many dice as it is asked for and
keeps to their faces, no roll overflows and none rolls nothing: a roll that is not refused by the limit gives
the exact sum of the faces that count, whatever its term and whatever was rolled before it. -/
theorem rolls_exactly_of_limit {ev : Evaluator ρ} {limit : Nat}
    (hlimit : ev.config.maxRolls = some limit) (hle : limit ≤ 2 ^ 31) (hhonest : Roller.Honest ev.roller)
    (program : Program) (context : γ) (bigFail : Bool) (expected : Option ValueType) :
    ev.RollsExactly program context bigFail expected := by
  have hreached : ∀ done here stack p term,
      Run.Reaches (ev.setting context bigFail) program.code { roller := ev.roller } done here stack p →
      program.code[here]? = some (.roll term) →
      Run.RollsExactly (ev.setting context bigFail) here term stack p := by
    intro done here stack p term hreaches _
    have hroller := (hreaches.dice rfl).2.1
    exact Run.rollsExactly hlimit hle (hroller ▸ hhonest.throwAll _) here term stack
  -- an error other than that of the limit comes from an instruction that is no roll
  have hstops : ∀ why q,
      Run.program program (ev.setting context bigFail) { roller := ev.roller } = .error why q →
      why ≠ .stackUnderflow → (∀ limit, why ≠ .tooManyRolls limit) →
      ∃ done here stack p i, Run.Reaches (ev.setting context bigFail) program.code
          { roller := ev.roller } done here stack p ∧ program.code[here]? = some i ∧
        i.rolls = [] ∧ (∀ term, why ≠ .rolledNothing term) ∧
        Run.Stops (ev.setting context bigFail) here i stack p why q := by
    intro why q hrun hunderflow hwhy
    rw [Run.program_apply] at hrun
    split at hrun
    · cases hrun
    · cases hrun
      exact absurd rfl hunderflow
    · rename_i hcode
      cases hrun
      obtain ⟨done, here, stack, p, i, hreaches, hi, hstop⟩ := Run.reaches_of_code_error hcode
      have hroll : ∀ term, i = .roll term →
          Run.RollsExactly (ev.setting context bigFail) here term stack p := by
        rintro term rfl
        exact hreached done here stack p term hreaches hi
      obtain ⟨hrolls, hnothing⟩ := hstop.not_roll hroll hwhy
      exact ⟨done, here, stack, p, i, hreaches, hi, hrolls, hnothing, hstop⟩
  refine { reached := hreached, rolledSomething := ?_, overflow := ?_ }
  · intro term hresult
    obtain ⟨q, hrun⟩ := run_error hresult
    obtain ⟨_, _, _, _, _, _, _, _, hnothing, _⟩ :=
      hstops _ q hrun (by intro h; cases h) (by intro limit h; cases h)
    exact hnothing term rfl
  · intro hresult
    obtain ⟨q, hrun⟩ := run_error hresult
    obtain ⟨done, here, stack, p, i, hreaches, hi, hrolls, _, hstop⟩ :=
      hstops _ q hrun (by intro h; cases h) (by intro limit h; cases h)
    exact ⟨done, here, stack, p, q, i, hreaches, hi, hrolls, hstop⟩

/-- The greatest dice there are, as many as the evaluator may roll; one more would be refused. -/
theorem rolls_exactly_of_limit_thousand :
    let ev : Evaluator Stepper := { roller := { value := 1, step := 1 } }
    let term : DiceTerm :=
      { count := { val := 1000 }, sides := .poly { val := 2 ^ 32 - 1 }, modifier := some (.drop (.lowest 1)) }
    ev.config.maxRolls = some 1000 ∧ 1000 ≤ 2 ^ 31 ∧ Roller.Honest ev.roller ∧
      ev.RollsExactly ⟨[.roll term, .roll term]⟩ NoVariables.mk true none := by
  intro ev term
  have hhonest : Roller.Honest ev.roller := Stepper.honest ev.roller
  exact ⟨rfl, by decide, hhonest, rolls_exactly_of_limit rfl (by decide) hhonest _ _ _ _⟩

end Evaluator
end Tabletop
