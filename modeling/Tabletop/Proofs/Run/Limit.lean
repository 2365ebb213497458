import Tabletop.Proofs.Run.Safety

/-!
# The limit on rolls

A run with a limit and the run without one are compared step by step.  The limit is looked at by roll
instructions alone, so the two runs reach the same instructions with the same progress until a roll
exceeds the limit.  There the run with the limit stops before a die of that roll is thrown.

How many dice are counted, and which state the roller is in, is told by the terms of the roll
instructions that were carried out (`Reaches.dice`).
-/

namespace Tabletop

/-- How many dice the terms throw together. -/
def DiceTerm.diceCount : List DiceTerm → Nat
  | [] => 0
  | term :: terms => term.count.val + diceCount terms

/-- The roller after the dice of the terms have been thrown, one term after the other. -/
def Roller.throwAll {ρ : Type} [Roller ρ] (terms : List DiceTerm) (roller : ρ) : ρ :=
  terms.foldl (fun roller term => (Roller.rollMany term.count.val term.sides.faces roller).2) roller

/-- The terms that an instruction rolls. -/
def Instruction.rolls : Instruction → List DiceTerm
  | .roll term => [term]
  | _ => []

/-- The terms that instructions have rolled, in the order in which they were carried out. -/
def Instruction.rolled (done : List (Instruction × List Value)) : List DiceTerm :=
  done.flatMap fun (i, _) => i.rolls

theorem Instruction.rolled_append_singleton (done : List (Instruction × List Value)) (i : Instruction)
    (stack : List Value) :
    Instruction.rolled (done ++ [(i, stack)]) = Instruction.rolled done ++ i.rolls := by
  simp [rolled]

theorem DiceTerm.diceCount_append (terms others : List DiceTerm) :
    diceCount (terms ++ others) = diceCount terms + diceCount others := by
  induction terms with
  | nil => simp [diceCount]
  | cons term terms ih => simp [diceCount, ih, Nat.add_assoc]

theorem Roller.throwAll_append {ρ : Type} [Roller ρ] (terms others : List DiceTerm) (roller : ρ) :
    throwAll (terms ++ others) roller = throwAll others (throwAll terms roller) :=
  List.foldl_append

/-- The setting with another limit on rolls. -/
def Setting.withMaxRolls (setting : Setting) (maxRolls : Option Nat) : Setting :=
  { setting with maxRolls }

namespace Run

open DiceTerm Roller

variable {ρ : Type} {setting : Setting} {p q : Progress ρ}

/-- A jump does not look at the limit. -/
theorem jumpTo_withMaxRolls (here target : Nat) (stack : List Value) (maxRolls other : Option Nat) :
    (jumpTo here target stack : Run ρ Outcome) (setting.withMaxRolls maxRolls) p =
      (jumpTo here target stack : Run ρ Outcome) (setting.withMaxRolls other) p := by
  unfold jumpTo
  split <;> rfl

variable [Roller ρ]

/-! ## What is counted and what is thrown -/

/-- One instruction counts and throws what it rolls, and stays within the limit. -/
theorem Advances.dice {here place : Nat} {i : Instruction} {stack stack' : List Value}
    (h : Advances setting here i stack p place stack' q) :
    q.rolled = p.rolled + diceCount i.rolls ∧ q.roller = throwAll i.rolls p.roller ∧
      ∀ limit, setting.maxRolls = some limit → p.rolled ≤ limit → q.rolled ≤ limit := by
  cases h with
  | roll h =>
    obtain ⟨hwithin, _, _, rfl⟩ := rollDice_ok h
    exact ⟨rfl, rfl, fun limit hlimit _ => hwithin limit hlimit⟩
  | load h =>
    rw [(load_ok h).2]
    exact ⟨rfl, rfl, fun _ _ hle => hle⟩
  | unary h =>
    rw [(unary_ok h).2]
    exact ⟨rfl, rfl, fun _ _ hle => hle⟩
  | binary h =>
    rw [(binary_ok h).2]
    exact ⟨rfl, rfl, fun _ _ hle => hle⟩
  | _ => exact ⟨rfl, rfl, fun _ _ hle => hle⟩

/-- What has been counted and thrown so far is what the instructions have rolled, and it is within the
limit. -/
theorem Reaches.dice {code : List Instruction} {done : List (Instruction × List Value)} {place : Nat}
    {stack : List Value} (h : Reaches setting code p done place stack q) (hp : p.rolled = 0) :
    q.rolled = diceCount (Instruction.rolled done) ∧
      q.roller = throwAll (Instruction.rolled done) p.roller ∧
      ∀ limit, setting.maxRolls = some limit → q.rolled ≤ limit := by
  induction h with
  | start => exact ⟨hp, rfl, fun limit _ => hp ▸ Nat.zero_le limit⟩
  | next _ _ hstep ih =>
    obtain ⟨hrolled, hroller, hlimit⟩ := ih
    obtain ⟨hrolled', hroller', hlimit'⟩ := hstep.dice
    rw [Instruction.rolled_append_singleton, diceCount_append, throwAll_append, ← hrolled, ← hroller]
    exact ⟨hrolled', hroller', fun limit hmax => hlimit' limit hmax (hlimit limit hmax)⟩

/-- An instruction that stops has thrown nothing, or what it rolls, which is then within the limit. -/
theorem Stops.dice {here : Nat} {i : Instruction} {stack : List Value} {why : RunError}
    (h : Stops setting here i stack p why q) :
    q.roller = p.roller ∨
      q.roller = throwAll i.rolls p.roller ∧
        ∀ limit, setting.maxRolls = some limit → p.rolled + diceCount i.rolls ≤ limit := by
  cases h with
  | roll h =>
    rcases rollDice_error h with ⟨_, _, rfl⟩ | ⟨hwithin, rfl, _⟩
    · exact .inl rfl
    · exact .inr ⟨rfl, hwithin⟩
  | load h => exact .inl (congrArg Progress.roller (load_error h).2)
  | unary h => exact .inl (congrArg Progress.roller (unary_error h).2)
  | binary h => exact .inl (congrArg Progress.roller (binary_error h).2)
  | _ => exact .inl rfl

/-! ## One instruction with a limit and without -/

theorem rollDice_of_le {limit : Nat} {term : DiceTerm} (h : p.rolled + term.count.val ≤ limit) :
    rollDice term (setting.withMaxRolls (some limit)) p =
      rollDice term (setting.withMaxRolls none) p := by
  have hfits : (some limit).filter (· < p.rolled + term.count.val) = none := by
    simpa using h
  rw [rollDice_apply, rollDice_apply]
  simp only [Setting.withMaxRolls, hfits, Option.filter_none]
  rfl

theorem rollDice_of_lt {limit : Nat} {term : DiceTerm} (h : limit < p.rolled + term.count.val) :
    rollDice term (setting.withMaxRolls (some limit)) p =
      .error (.tooManyRolls limit) { p with rolled := p.rolled + term.count.val } := by
  have hexceeds : (some limit).filter (· < p.rolled + term.count.val) = some limit := by
    simpa using h
  rw [rollDice_apply]
  simp only [Setting.withMaxRolls, hexceeds]

/-- An instruction that is not a roll beyond the limit does the same without a limit. -/
theorem step_of_le {limit here : Nat} {i : Instruction} {stack : List Value}
    (h : ∀ term, i = .roll term → p.rolled + term.count.val ≤ limit) :
    step here i stack (setting.withMaxRolls (some limit)) p =
      step here i stack (setting.withMaxRolls none) p := by
  cases i with
  | roll term =>
    rw [step, bind_apply, bind_apply, rollDice_of_le (h term rfl)]
    rfl
  | load name =>
    rw [step, bind_apply, bind_apply, load_apply, load_apply]
    rfl
  | unary op =>
    cases stack with
    | nil => rfl
    | cons v stack =>
      rw [step, bind_apply, bind_apply, unary_apply, unary_apply]
      rfl
  | binary op =>
    rcases stack with _ | ⟨r, _ | ⟨l, stack⟩⟩
    · rfl
    · rfl
    · rw [step, bind_apply, bind_apply, binary_apply, binary_apply]
      rfl
  | concat n =>
    rw [step]
    split <;> rfl
  | jump target => exact jumpTo_withMaxRolls here target stack _ _
  | jumpIf target =>
    cases stack with
    | nil => rfl
    | cons v stack =>
      rw [step]
      split
      · exact jumpTo_withMaxRolls here target stack _ _
      · rfl
  | jumpUnless target =>
    cases stack with
    | nil => rfl
    | cons v stack =>
      rw [step]
      split
      · rfl
      · exact jumpTo_withMaxRolls here target stack _ _
  | _ => cases stack <;> rfl

theorem Advances.withLimit {limit here place : Nat} {i : Instruction} {stack stack' : List Value}
    (h : Advances (setting.withMaxRolls none) here i stack p place stack' q)
    (hfits : ∀ term, i = .roll term → p.rolled + term.count.val ≤ limit) :
    Advances (setting.withMaxRolls (some limit)) here i stack p place stack' q := by
  obtain ⟨hforward, hstep⟩ := h.step_eq
  have hexplains := explains_step (setting.withMaxRolls (some limit)) here i stack p
  rw [step_of_le hfits, hstep] at hexplains
  have hplace : here + 1 + (place - (here + 1)) = place := by omega
  rw [← hplace]
  exact hexplains

/-! ## Runs with a limit and without -/

/-- A run comes to a roll instruction; the terms are those of the roll instructions that it has come to,
this one last. -/
def ReachesRoll (setting : Setting) (code : List Instruction) (p : Progress ρ) (terms : List DiceTerm) :
    Prop :=
  ∃ done here stack q term, Reaches setting code p done here stack q ∧
    code[here]? = some (.roll term) ∧ terms = Instruction.rolled done ++ [term]

/-- Where one setting after another makes no difference to any instruction that is reached, it makes
none to the run. -/
theorem code_congr {setting setting' : Setting} {instructions : List Instruction} {p : Progress ρ}
    (h : ∀ done here stack q i, Reaches setting instructions p done here stack q →
      instructions[here]? = some i → step here i stack setting' q = step here i stack setting q) :
    code 0 0 instructions [] setting' p = code 0 0 instructions [] setting p := by
  -- the induction is on the code that is left, which has been reached by carrying out `done`
  have hrest : ∀ (rest before : List Instruction) (done : List (Instruction × List Value)) (skip : Nat)
      (stack : List Value) (q : Progress ρ), instructions = before ++ rest →
      Reaches setting instructions p done (before.length + skip) stack q →
      code before.length skip rest stack setting' q = code before.length skip rest stack setting q := by
    intro rest
    induction rest with
    | nil =>
      intro before done skip stack q _ _
      rfl
    | cons i rest ih =>
      intro before done skip stack q hsplit hreaches
      have hlength : before.length + 1 = (before ++ [i]).length := by
        rw [List.length_append, List.length_singleton]
      have hsplit' : instructions = (before ++ [i]) ++ rest := by
        rw [hsplit, List.append_assoc, List.singleton_append]
      cases skip with
      | succ skip =>
        rw [code, hlength]
        have hplace : before.length + (skip + 1) = (before ++ [i]).length + skip := by omega
        rw [hplace] at hreaches
        exact ih _ done skip stack q hsplit' hreaches
      | zero =>
        have hi : instructions[before.length]? = some i := by
          rw [hsplit]
          simp
        have hexplains := explains_step setting before.length i stack q
        have hsame : step before.length i stack setting' q = step before.length i stack setting q :=
          h done before.length stack q i hreaches hi
        rw [code, bind_apply, bind_apply, hsame]
        cases hstep : step before.length i stack setting q with
        | error why r => rfl
        | ok after r =>
          rw [hstep] at hexplains
          have hnext := Reaches.next hreaches hi hexplains
          rw [hlength] at hnext ⊢
          exact ih _ _ _ _ _ hsplit' hnext
  exact hrest instructions [] [] 0 [] p rfl .start

/-- A configuration that is reached without a limit is reached with it as well, or the run comes to a
roll that is the first to exceed the limit. -/
theorem Reaches.withLimit {limit place : Nat} {code : List Instruction}
    {done : List (Instruction × List Value)} {stack : List Value}
    (h : Reaches (setting.withMaxRolls none) code p done place stack q) :
    Reaches (setting.withMaxRolls (some limit)) code p done place stack q ∨
      ∃ done here stack q term, Reaches (setting.withMaxRolls none) code p done here stack q ∧
        Reaches (setting.withMaxRolls (some limit)) code p done here stack q ∧
        code[here]? = some (.roll term) ∧ limit < q.rolled + term.count.val := by
  induction h with
  | start => exact .inl .start
  | @next done here stack q i place stack' q' hreaches hi hstep ih =>
    rcases ih with hlimited | hexceeds
    · by_cases hfits : ∀ term, i = .roll term → q.rolled + term.count.val ≤ limit
      · exact .inl (.next hlimited hi (hstep.withLimit hfits))
      · simp only [Classical.not_forall, Nat.not_le] at hfits
        obtain ⟨term, rfl, hexceeds⟩ := hfits
        exact .inr ⟨done, here, stack, q, term, hreaches, hlimited, hi, hexceeds⟩
    · exact .inr hexceeds

/-- Where no roll exceeds the limit, the limit makes no difference. -/
theorem code_of_le {limit : Nat} {instructions : List Instruction} (hp : p.rolled = 0)
    (h : ∀ terms, ReachesRoll (setting.withMaxRolls none) instructions p terms →
      diceCount terms ≤ limit) :
    code 0 0 instructions [] (setting.withMaxRolls (some limit)) p =
      code 0 0 instructions [] (setting.withMaxRolls none) p := by
  refine code_congr fun done here stack q i hreaches hi => step_of_le ?_
  rintro term rfl
  have hcount := h _ ⟨done, here, stack, q, term, hreaches, hi, rfl⟩
  rw [diceCount_append, ← (hreaches.dice hp).1] at hcount
  simpa [diceCount] using hcount

/-- Where a roll exceeds the limit, the run with the limit stops at the first such roll, before a die of
it is thrown. -/
theorem code_of_lt {limit : Nat} {instructions : List Instruction} {terms : List DiceTerm}
    (hp : p.rolled = 0) (h : ReachesRoll (setting.withMaxRolls none) instructions p terms)
    (hlt : limit < diceCount terms) :
    ∃ before term r, ReachesRoll (setting.withMaxRolls none) instructions p (before ++ [term]) ∧
      diceCount before ≤ limit ∧ limit < diceCount (before ++ [term]) ∧
      code 0 0 instructions [] (setting.withMaxRolls (some limit)) p = .error (.tooManyRolls limit) r ∧
      r.roller = throwAll before p.roller := by
  have hfirst : ∃ done here stack q term,
      Reaches (setting.withMaxRolls none) instructions p done here stack q ∧
      Reaches (setting.withMaxRolls (some limit)) instructions p done here stack q ∧
      instructions[here]? = some (.roll term) ∧ limit < q.rolled + term.count.val := by
    obtain ⟨done, here, stack, q, term, hreaches, hi, rfl⟩ := h
    rcases hreaches.withLimit with hlimited | hexceeds
    · refine ⟨done, here, stack, q, term, hreaches, hlimited, hi, ?_⟩
      rw [diceCount_append, ← (hreaches.dice hp).1] at hlt
      simpa [diceCount] using hlt
    · exact hexceeds
  obtain ⟨done, here, stack, q, term, hreaches, hlimited, hi, hexceeds⟩ := hfirst
  obtain ⟨hrolled, hroller, hinside⟩ := hlimited.dice hp
  refine ⟨Instruction.rolled done, term, { q with rolled := q.rolled + term.count.val },
    ⟨done, here, stack, q, term, hreaches, hi, rfl⟩, ?_, ?_, ?_, hroller⟩
  · rw [← hrolled]
    exact hinside limit rfl
  · rw [diceCount_append, ← hrolled]
    simpa [diceCount] using hexceeds
  · obtain ⟨hlength, hget⟩ := List.getElem?_eq_some_iff.1 hi
    rw [hlimited.code_eq, List.drop_eq_getElem_cons hlength, hget, code, bind_apply, step, bind_apply,
      rollDice_of_lt hexceeds]

/-- The progress that a run leaves behind, however it ends. -/
def left {α : Type} : EStateM.Result RunError (Progress ρ) α → Progress ρ
  | .ok _ q => q
  | .error _ q => q

theorem left_program (program : Program) (setting : Setting) (p : Progress ρ) :
    left (Run.program program setting p) = left (code 0 0 program.code [] setting p) := by
  rw [program_apply]
  rcases code 0 0 program.code [] setting p with ⟨_ | ⟨v, stack⟩, q⟩ | ⟨why, q⟩ <;> rfl

/-- A run with a limit throws no more dice than the limit allows, however it ends. -/
theorem exists_throwAll_of_code {limit : Nat} {instructions : List Instruction} (hp : p.rolled = 0)
    (hlimit : setting.maxRolls = some limit) :
    ∃ terms, diceCount terms ≤ limit ∧
      (left (code 0 0 instructions [] setting p)).roller = throwAll terms p.roller := by
  cases hcode : code 0 0 instructions [] setting p with
  | ok stack q =>
    obtain ⟨done, place, hreaches, _⟩ := reaches_of_code_ok hcode
    obtain ⟨hrolled, hroller, hinside⟩ := hreaches.dice hp
    exact ⟨Instruction.rolled done, hrolled ▸ hinside limit hlimit, hroller⟩
  | error why q =>
    obtain ⟨done, here, stack, r, i, hreaches, _, hstops⟩ := reaches_of_code_error hcode
    obtain ⟨hrolled, hroller, hinside⟩ := hreaches.dice hp
    rcases hstops.dice with hnone | ⟨hall, hfits⟩
    · exact ⟨Instruction.rolled done, hrolled ▸ hinside limit hlimit, hnone.trans hroller⟩
    · refine ⟨Instruction.rolled done ++ i.rolls, ?_, ?_⟩
      · rw [diceCount_append, ← hrolled]
        exact hfits limit hlimit
      · show q.roller = _
        rw [throwAll_append, hall, hroller]

end Run
end Tabletop
