import Tabletop.Proofs.Run.Limit
import Tabletop.Proofs.Run.Lockstep
import Tabletop.Proofs.Run.Steps

/-!
# The dice of a run

To say that a trace leaves no die out and makes none up, a run is done once more with a roller that
remembers every die it throws, `Observed`.  The run is the same, and what the roller remembers is what the
trace shows (`Run.TracksDice`).

What is made of the dice of one roll step is `DiceTerm.Records`: how many there are, which of them are
dropped, and what the others add up to.
-/

namespace Tabletop

/-! ## Rollers that are watched -/

/-- A roller together with the dice that it has thrown, the first one first. -/
structure Observed (ρ : Type) where
  roller : ρ
  thrown : List UInt32 := []

instance {ρ : Type} [Roller ρ] : Roller (Observed ρ) where
  rollMany count sides observed :=
    { fst := (Roller.rollMany count sides observed.roller).1
      snd :=
        { roller := (Roller.rollMany count sides observed.roller).2
          thrown := observed.thrown ++ (Roller.rollMany count sides observed.roller).1 } }

/-- Whatever was thrown before, the roller throws as many dice as it is asked for, and every die shows one
of its faces. -/
def Roller.Honest {ρ : Type} [Roller ρ] (roller : ρ) : Prop :=
  ∀ (earlier : List DiceTerm) (count : Nat) (sides : Quantity),
    (Roller.rollMany count sides (Roller.throwAll earlier roller)).1.length = count ∧
      ∀ face ∈ (Roller.rollMany count sides (Roller.throwAll earlier roller)).1,
        1 ≤ face.toNat ∧ face.toNat ≤ sides.val

theorem Roller.Honest.rollMany {ρ : Type} [Roller ρ] {roller : ρ} (h : Roller.Honest roller)
    (term : DiceTerm) :
    Roller.Honest (Roller.rollMany term.count.val term.sides.faces roller).2 :=
  fun earlier => h (term :: earlier)

/-- Prescribed values are brought within the faces of the die. -/
theorem Quantity.faceFor_range (sides : Quantity) (value : UInt32) :
    1 ≤ (sides.faceFor value).toNat ∧ (sides.faceFor value).toNat ≤ sides.val := by
  have hmod := Nat.mod_lt (value - 1).toNat sides.pos
  have hlt := sides.lt
  rw [faceFor, UInt32.toNat_ofNat_of_lt' (by simp only [UInt32.size]; omega)]
  omega

/-- Who counts up from a first value throws as many dice as are asked for, within their faces. -/
theorem Stepper.honest (s : Stepper) : Roller.Honest s := by
  intro earlier count sides
  generalize Roller.throwAll earlier s = s
  show (rollMany count sides s).1.length = count ∧ ∀ face ∈ (rollMany count sides s).1, _
  induction count generalizing s with
  | zero => exact ⟨rfl, by nofun⟩
  | succ count ih =>
    obtain ⟨hlength, hrange⟩ := ih { s with value := s.value + s.step }
    rw [rollMany]
    refine ⟨congrArg (· + 1) hlength, ?_⟩
    intro face hface
    rcases List.mem_cons.1 hface with rfl | hface
    · exact sides.faceFor_range s.value
    · exact hrange face hface

/-! ## One roll step -/

/-- The faces and the total of a roll step are what the term makes of its dice. -/
structure DiceTerm.Records (term : DiceTerm) (faces : List Face) (total : Number) : Prop where
  count : faces.length = term.count.val
  dropped : faces.map Face.dropped = term.dropped (faces.map Face.value)
  sum : total.toInt = ((Face.kept faces).map Face.value).sum
  atLeast : (Face.kept faces).length ≤ total.toInt
  atMost : total.toInt ≤ (Face.kept faces).length * term.sides.faces.val

section

variable {ρ : Type} [Roller ρ] {roller : ρ}

/-- An honest roller throws as many faces for a term as the term has dice. -/
theorem Roller.Honest.length_facesFrom (h : Roller.Honest roller) (term : DiceTerm)
    (rule : Option BigFailRule) : (term.facesFrom rule roller).length = term.count.val := by
  rw [DiceTerm.facesFrom, DiceTerm.length_judge]
  exact (h [] term.count.val term.sides.faces).1

/-- The faces of an honest roller lie between one and the number of sides, those that count among them. -/
theorem Roller.Honest.kept_facesFrom (h : Roller.Honest roller) (term : DiceTerm)
    (rule : Option BigFailRule) :
    ∀ face ∈ Face.kept (term.facesFrom rule roller),
      1 ≤ face.value ∧ face.value ≤ term.sides.faces.val := by
  intro face hface
  have hvalue : face.value ∈ (term.facesFrom rule roller).map Face.value :=
    List.mem_map_of_mem (List.mem_of_mem_filter hface)
  rw [DiceTerm.facesFrom, DiceTerm.map_value_judge] at hvalue
  obtain ⟨die, hdie, hdieValue⟩ := List.mem_map.1 hvalue
  have hdieRange := (h [] term.count.val term.sides.faces).2 die hdie
  omega

theorem DiceTerm.records_facesFrom (hhonest : Roller.Honest roller)
    {term : DiceTerm} {rule : Option BigFailRule} {total : Number}
    (htotal : Face.total? (term.facesFrom rule roller) = some total) :
    term.Records (term.facesFrom rule roller) total := by
  have hsum := Face.toInt_of_total? htotal
  have hbounds := Face.sum_values_bounds (hhonest.kept_facesFrom term rule)
  exact
    { count := hhonest.length_facesFrom term rule
      dropped := by rw [facesFrom, map_dropped_judge, map_value_judge]
      sum := hsum
      atLeast := hsum ▸ hbounds.1
      atMost := hsum ▸ hbounds.2 }

end

/-! ## A run that is watched -/

/-- The progress of a run without what its roller remembers. -/
def Progress.unobserved {ρ : Type} (p : Progress (Observed ρ)) : Progress ρ :=
  { p with roller := p.roller.roller }

namespace Run

variable {ρ : Type} [Roller ρ]

/-- No effect looks at what the roller remembers. -/
theorem lockstep_observed (setting : Setting) :
    Lockstep (fun (p : Progress ρ) (q : Progress (Observed ρ)) => p = q.unobserved) setting setting where
  rollDice term p q hpq := by
    subst hpq
    exact Agree.rollDice term rfl rfl rfl rfl rfl fun _ => rfl
  load name p q hpq := by
    subst hpq
    exact Agree.load name rfl rfl fun _ => rfl
  store name v p q hpq := by
    subst hpq
    exact .ok rfl
  unary op v p q hpq := by
    subst hpq
    exact Agree.unary op v rfl fun _ => rfl
  binary op l r p q hpq := by
    subst hpq
    exact Agree.binary op l r rfl fun _ => rfl

/-- A run that succeeds does so under observation as well. -/
theorem program_observed {program : Program} {setting : Setting} {roller : ρ} {v : Value}
    {p : Progress ρ} (h : Run.program program setting { roller } = .ok v p) :
    ∃ q : Progress (Observed ρ),
      Run.program program setting { roller := { roller } } = .ok v q ∧ p = q.unobserved := by
  have hagree := (lockstep_observed setting).program
    (p := { roller }) (q := { roller := { roller } }) rfl program
  rcases hagree.elim with ⟨u, p', q, hp, hq, rfl⟩ | ⟨why, p', q, hp, _⟩ <;>
    rw [h] at hp <;> cases hp
  exact ⟨q, hq, rfl⟩

/-- The trace shows the dice that the roller remembers, and each of its roll steps is a record of its
term; the roller is honest still. -/
structure TracksDice (p : Progress (Observed ρ)) : Prop where
  honest : Roller.Honest p.roller.roller
  faces : p.trace.faces.map Face.value = DiceTerm.values p.roller.thrown
  records : p.trace.AllRolls DiceTerm.Records

theorem Proceeds.tracksDice {setting : Setting} {p q : Progress (Observed ρ)}
    (h : Proceeds setting p q) (hp : TracksDice p) : TracksDice q := by
  rcases h.roll_or with ⟨term, total, htotal, rfl⟩ | rfl | ⟨step, writes, hstep, rfl⟩
  · have hfaces : (term.facesFrom setting.rule p.roller).map Face.value =
        DiceTerm.values (Roller.rollMany term.count.val term.sides.faces p.roller.roller).1 :=
      term.map_value_judge _ _
    refine
      { honest := hp.honest.rollMany term
        faces := ?_
        records := hp.records.push_roll (DiceTerm.records_facesFrom hp.honest htotal) }
    rw [Trace.faces_push, List.map_append, hp.faces, Step.faces, hfaces, DiceTerm.values,
      DiceTerm.values, ← List.map_append]
    rfl
  · exact hp
  · refine { honest := hp.honest, faces := ?_, records := hp.records.push hstep }
    rw [Trace.faces_push, Step.faces_eq_nil hstep, List.append_nil]
    exact hp.faces

end Run

end Tabletop
