import Tabletop.Run.Machine

/-!
# What the effects of a run do

One equation for each effect: the result it gives and the progress it leaves, from any setting and any
progress.  Everything that is proved about runs is proved from these equations, and no later proof opens
an effect again.
-/

namespace Tabletop

/-- The faces that a term makes of the dice that a roller throws for it. -/
def DiceTerm.facesFrom {ρ : Type} [Roller ρ] (term : DiceTerm) (rule : Option BigFailRule)
    (roller : ρ) : List Face :=
  term.judge rule (Roller.rollMany term.count.val term.sides.faces roller).1

namespace Run

variable {ρ α β : Type}

theorem bind_apply (x : Run ρ α) (f : α → Run ρ β) (setting : Setting) (p : Progress ρ) :
    (x >>= f) setting p =
      match x setting p with
      | .ok a p => f a setting p
      | .error why p => .error why p := by
  show EStateM.bind (x setting) (fun a => f a setting) p = _
  rw [EStateM.bind]
  cases x setting p <;> rfl

/-- What gives a result has given one at every stage. -/
theorem bind_ok {x : Run ρ α} {f : α → Run ρ β} {setting : Setting} {p q : Progress ρ} {b : β}
    (h : (x >>= f) setting p = .ok b q) :
    ∃ a r, x setting p = .ok a r ∧ f a setting r = .ok b q := by
  rw [bind_apply] at h
  split at h
  · exact ⟨_, _, ‹_›, h⟩
  · cases h

/-! ## Variables and operators -/

theorem load_apply (name : String) (setting : Setting) (p : Progress ρ) :
    load name setting p =
      match (p.writes.get? name).or (setting.lookup name) with
      | none => .error (.undefinedVariable name) p
      | some v => .ok v { p with trace := p.trace.push (.load name v) } := by
  show (match (p.writes.get? name).or (setting.lookup name) with
    | none => throw (RunError.undefinedVariable name)
    | some v => (do log (.load name v); return v : Run ρ Value)) setting p = _
  cases (p.writes.get? name).or (setting.lookup name) <;> rfl

theorem store_apply (name : String) (v : Value) (setting : Setting) (p : Progress ρ) :
    store name v setting p =
      .ok () { p with writes := p.writes.set name v, trace := p.trace.push (.store name v) } :=
  rfl

theorem unary_apply (op : UnaryOperator) (v : Value) (setting : Setting) (p : Progress ρ) :
    unary op v setting p =
      match op.apply v with
      | .error why => .error why p
      | .ok result => .ok result { p with trace := p.trace.push (.unary op v result) } := by
  rw [unary, bind_apply]
  cases op.apply v <;> rfl

theorem binary_apply (op : BinaryOperator) (l r : Value) (setting : Setting) (p : Progress ρ) :
    binary op l r setting p =
      match op.apply l r with
      | .error why => .error why p
      | .ok result => .ok result { p with trace := p.trace.push (.binary l op r result) } := by
  rw [binary, bind_apply]
  cases op.apply l r <;> rfl

theorem load_ok {name : String} {setting : Setting} {p q : Progress ρ} {v : Value}
    (h : load name setting p = .ok v q) :
    (p.writes.get? name).or (setting.lookup name) = some v ∧
      q = { p with trace := p.trace.push (.load name v) } := by
  rw [load_apply] at h
  split at h <;> cases h
  exact ⟨‹_›, rfl⟩

theorem load_error {name : String} {setting : Setting} {p q : Progress ρ} {why : RunError}
    (h : load name setting p = .error why q) : why = .undefinedVariable name ∧ q = p := by
  rw [load_apply] at h
  split at h <;> cases h
  exact ⟨rfl, rfl⟩

theorem unary_ok {op : UnaryOperator} {v r : Value} {setting : Setting} {p q : Progress ρ}
    (h : unary op v setting p = .ok r q) :
    op.apply v = .ok r ∧ q = { p with trace := p.trace.push (.unary op v r) } := by
  rw [unary_apply] at h
  split at h <;> cases h
  exact ⟨‹_›, rfl⟩

theorem unary_error {op : UnaryOperator} {v : Value} {setting : Setting} {p q : Progress ρ}
    {why : RunError} (h : unary op v setting p = .error why q) : op.apply v = .error why ∧ q = p := by
  rw [unary_apply] at h
  split at h <;> cases h
  exact ⟨‹_›, rfl⟩

theorem binary_ok {op : BinaryOperator} {l r v : Value} {setting : Setting} {p q : Progress ρ}
    (h : binary op l r setting p = .ok v q) :
    op.apply l r = .ok v ∧ q = { p with trace := p.trace.push (.binary l op r v) } := by
  rw [binary_apply] at h
  split at h <;> cases h
  exact ⟨‹_›, rfl⟩

theorem binary_error {op : BinaryOperator} {l r : Value} {setting : Setting} {p q : Progress ρ}
    {why : RunError} (h : binary op l r setting p = .error why q) :
    op.apply l r = .error why ∧ q = p := by
  rw [binary_apply] at h
  split at h <;> cases h
  exact ⟨‹_›, rfl⟩

/-! ## Dice -/

theorem countDice_apply (n : Nat) (setting : Setting) (p : Progress ρ) :
    countDice n setting p =
      match setting.maxRolls.filter (· < p.rolled + n) with
      | some limit => .error (.tooManyRolls limit) { p with rolled := p.rolled + n }
      | none => .ok () { p with rolled := p.rolled + n } := by
  show (match setting.maxRolls with
    | some limit =>
      (do if limit < (← get).rolled then throw (RunError.tooManyRolls limit) : Run ρ Unit)
    | none => pure ()) setting { p with rolled := p.rolled + n } = _
  cases setting.maxRolls with
  | none => rfl
  | some limit =>
    show (if limit < p.rolled + n then (throw (RunError.tooManyRolls limit) : Run ρ Unit)
      else pure ()) setting { p with rolled := p.rolled + n } = _
    by_cases h : limit < p.rolled + n
    · rw [if_pos h, Option.filter_some, if_pos (by simpa using h)]
      rfl
    · rw [if_neg h, Option.filter_some, if_neg (by simpa using h)]
      rfl

/-- The dice of a term are no more than the limit leaves. -/
def WithinLimit (term : DiceTerm) (setting : Setting) (p : Progress ρ) : Prop :=
  ∀ limit, setting.maxRolls = some limit → p.rolled + term.count.val ≤ limit

theorem withinLimit_of_filter {term : DiceTerm} {setting : Setting} {p : Progress ρ}
    (h : setting.maxRolls.filter (· < p.rolled + term.count.val) = none) :
    WithinLimit term setting p := by
  intro limit hlimit
  rw [hlimit] at h
  simpa using h

variable [Roller ρ]

/-- The progress after the dice of a term have been counted and thrown. -/
def thrown (term : DiceTerm) (setting : Setting) (p : Progress ρ) : Progress ρ :=
  { p with
    rolled := p.rolled + term.count.val
    roller := (Roller.rollMany term.count.val term.sides.faces p.roller).2
    bigFail := p.bigFail || (term.facesFrom setting.rule p.roller).any (·.bigFail) }

/-- A roll that exceeds the limit throws nothing; any other roll throws its dice, also if it fails. -/
theorem rollDice_apply (term : DiceTerm) (setting : Setting) (p : Progress ρ) :
    rollDice term setting p =
      match setting.maxRolls.filter (· < p.rolled + term.count.val) with
      | some limit => .error (.tooManyRolls limit) { p with rolled := p.rolled + term.count.val }
      | none =>
        match Face.total? (term.facesFrom setting.rule p.roller) with
        | none => .error .overflow (thrown term setting p)
        | some total =>
          if (term.facesFrom setting.rule p.roller).isEmpty then
            .error (.rolledNothing term) (thrown term setting p)
          else
            .ok (.number total)
              { thrown term setting p with
                trace := p.trace.push (.roll term (term.facesFrom setting.rule p.roller) total) } := by
  rw [rollDice, bind_apply, countDice_apply]
  cases setting.maxRolls.filter (· < p.rolled + term.count.val) with
  | some limit => rfl
  | none =>
    show (match Face.total? (term.facesFrom setting.rule p.roller) with
      | none => throw RunError.overflow
      | some total =>
        if (term.facesFrom setting.rule p.roller).isEmpty then throw (RunError.rolledNothing term)
        else
          (do
            log (.roll term (term.facesFrom setting.rule p.roller) total)
            return .number total : Run ρ Value)) setting (thrown term setting p) = _
    cases Face.total? (term.facesFrom setting.rule p.roller) with
    | none => rfl
    | some total => cases (term.facesFrom setting.rule p.roller).isEmpty <;> rfl

/-- A roll of which the faces are known. -/
theorem rollDice_of_faces {term : DiceTerm} {setting : Setting} {p : Progress ρ} {faces : List Face}
    {total : Number} (hlimit : setting.maxRolls.filter (· < p.rolled + term.count.val) = none)
    (hfaces : term.facesFrom setting.rule p.roller = faces) (htotal : Face.total? faces = some total)
    (hne : faces.isEmpty = false) :
    rollDice term setting p =
      .ok (.number total)
        { p with
          rolled := p.rolled + term.count.val
          roller := (Roller.rollMany term.count.val term.sides.faces p.roller).2
          bigFail := p.bigFail || faces.any (·.bigFail)
          trace := p.trace.push (.roll term faces total) } := by
  rw [rollDice_apply, hlimit]
  dsimp only
  rw [thrown, hfaces, htotal]
  dsimp only
  rw [hne]
  rfl

theorem rollDice_ok {term : DiceTerm} {setting : Setting} {p q : Progress ρ} {v : Value}
    (h : rollDice term setting p = .ok v q) :
    WithinLimit term setting p ∧
      ∃ total, Face.total? (term.facesFrom setting.rule p.roller) = some total ∧
        q = { thrown term setting p with
          trace := p.trace.push (.roll term (term.facesFrom setting.rule p.roller) total) } := by
  rw [rollDice_apply] at h
  split at h
  · cases h
  · rename_i hlimit
    refine ⟨withinLimit_of_filter hlimit, ?_⟩
    split at h
    · cases h
    · rename_i total htotal
      split at h <;> cases h
      exact ⟨total, htotal, rfl⟩

/-- A roll fails because it exceeds the limit, or after its dice were thrown. -/
theorem rollDice_error {term : DiceTerm} {setting : Setting} {p q : Progress ρ} {why : RunError}
    (h : rollDice term setting p = .error why q) :
    (∃ limit, why = .tooManyRolls limit ∧ q = { p with rolled := p.rolled + term.count.val }) ∨
      (WithinLimit term setting p ∧ q = thrown term setting p ∧
        (why = .overflow ∨
          why = .rolledNothing term ∧ (term.facesFrom setting.rule p.roller).isEmpty)) := by
  rw [rollDice_apply] at h
  split at h
  · cases h
    exact .inl ⟨_, rfl, rfl⟩
  · rename_i hlimit
    have hwithin : WithinLimit term setting p := withinLimit_of_filter hlimit
    split at h
    · cases h
      exact .inr ⟨hwithin, rfl, .inl rfl⟩
    · split at h
      · rename_i hempty
        cases h
        exact .inr ⟨hwithin, rfl, .inr ⟨rfl, hempty⟩⟩
      · cases h

end Run
end Tabletop
