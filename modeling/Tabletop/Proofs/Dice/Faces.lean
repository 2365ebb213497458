import Mathlib.Algebra.Order.BigOperators.Group.List
import Mathlib.Algebra.Ring.Int.Defs
import Tabletop.Proofs.Dice.Ranking
import Tabletop.Run.Effect

/-!
# The faces of a roll

Marking what is dropped and what is a big fail neither adds a face nor loses one.  The three things that
a face tells, its value, whether it is dropped and whether it is a big fail, are each said for all faces
of a roll at once, and the total is said without the fold that computes it.
-/

namespace Tabletop

/-! ## Marks -/

namespace DiceTerm

/-- For each face whether it is taken out of the total: those that the modifier drops, and none without
one. -/
def dropped (term : DiceTerm) (values : List Int) : List Bool :=
  match term.modifier with
  | some m => m.dropped values
  | none => List.replicate values.length false

theorem length_dropped (term : DiceTerm) (values : List Int) :
    (term.dropped values).length = values.length := by
  rw [dropped]
  cases term.modifier with
  | none => exact List.length_replicate
  | some m => exact m.length_dropped values

/-- The values of dice that were thrown. -/
def values (thrown : List UInt32) : List Int :=
  thrown.map fun face => (face.toNat : Int)

theorem judge_eq (term : DiceTerm) (rule : Option BigFailRule) (thrown : List UInt32) :
    term.judge rule thrown =
      ((values thrown).zip (term.dropped (values thrown))).map fun (value, dropped) =>
        { value, dropped,
          bigFail := !dropped && rule.any fun isBigFail => isBigFail term.sides.faces.val value } := by
  rw [judge, dropped]
  cases term.modifier with
  | none =>
    rw [← List.map_const']
    rfl
  | some m => rfl

theorem map_value_judge (term : DiceTerm) (rule : Option BigFailRule) (thrown : List UInt32) :
    (term.judge rule thrown).map Face.value = values thrown := by
  rw [judge_eq, List.map_map]
  exact List.map_fst_zip (term.length_dropped _).ge

theorem map_dropped_judge (term : DiceTerm) (rule : Option BigFailRule) (thrown : List UInt32) :
    (term.judge rule thrown).map Face.dropped = term.dropped (values thrown) := by
  rw [judge_eq, List.map_map]
  exact List.map_snd_zip (term.length_dropped _).le

/-- A face is a big fail if it counts and the rule says so. -/
theorem bigFail_of_mem_judge {term : DiceTerm} {rule : Option BigFailRule} {thrown : List UInt32}
    {face : Face} (h : face ∈ term.judge rule thrown) :
    face.bigFail =
      (!face.dropped && rule.any fun isBigFail => isBigFail term.sides.faces.val face.value) := by
  rw [judge_eq] at h
  obtain ⟨_, _, rfl⟩ := List.mem_map.1 h
  rfl

theorem length_judge (term : DiceTerm) (rule : Option BigFailRule) (thrown : List UInt32) :
    (term.judge rule thrown).length = thrown.length := by
  rw [← List.length_map, map_value_judge, values, List.length_map]

end DiceTerm

/-! ## Totals -/

namespace Face

/-- The faces that count. -/
def kept (faces : List Face) : List Face :=
  faces.filter (!·.dropped)

/-- What is added to a sum is added exactly, or there is no sum. -/
theorem toInt_of_foldlM {faces : List Face} {start total : Number}
    (h : faces.foldlM (fun sum face => Number.ofInt? (sum.toInt + face.value)) start = some total) :
    total.toInt = start.toInt + (faces.map Face.value).sum := by
  induction faces generalizing start with
  | nil =>
    cases h
    simp
  | cons face faces ih =>
    rw [List.foldlM_cons, Option.bind_eq_bind, Option.bind_eq_some_iff] at h
    obtain ⟨sum, hsum, hrest⟩ := h
    rw [ih hrest, Number.ofInt?_eq_some_iff.1 hsum, List.map_cons, List.sum_cons, Int.add_assoc]

/-- A total is the exact sum of the faces that count. -/
theorem toInt_of_total? {faces : List Face} {total : Number} (h : total? faces = some total) :
    total.toInt = ((kept faces).map Face.value).sum := by
  rw [toInt_of_foldlM h]
  exact Int.zero_add _

/-- The sum of faces that lie between one and the number of sides. -/
theorem sum_values_bounds {faces : List Face} {sides : Int}
    (h : ∀ face ∈ faces, 1 ≤ face.value ∧ face.value ≤ sides) :
    faces.length ≤ (faces.map Face.value).sum ∧
      (faces.map Face.value).sum ≤ faces.length * sides := by
  have hlow := List.card_nsmul_le_sum (faces.map Face.value) 1 (by simpa using fun f hf => (h f hf).1)
  have hhigh := List.sum_le_card_nsmul (faces.map Face.value) sides
    (by simpa using fun f hf => (h f hf).2)
  simpa using And.intro hlow hhigh

end Face

/-! ## The rolls of a trace -/

/-- The faces that a step shows. -/
def Step.faces : Step → List Face
  | .roll _ faces _ => faces
  | _ => []

/-- Whether a step is a roll. -/
def Step.isRoll : Step → Bool
  | .roll _ _ _ => true
  | _ => false

theorem Step.faces_eq_nil {step : Step} (h : step.isRoll = false) : step.faces = [] := by
  cases step with
  | roll term faces total => cases h
  | _ => rfl

namespace Trace

@[simp]
theorem faces_push (t : Trace) (step : Step) : (t.push step).faces = t.faces ++ step.faces := by
  rw [faces, steps_push, List.flatMap_append, List.flatMap_singleton]
  cases step <;> rfl

theorem mem_faces {t : Trace} {face : Face} :
    face ∈ t.faces ↔ ∃ term faces total, .roll term faces total ∈ t.steps ∧ face ∈ faces := by
  rw [faces, List.mem_flatMap]
  constructor
  · rintro ⟨step, hstep, hface⟩
    cases step with
    | roll term faces total => exact ⟨term, faces, total, hstep, hface⟩
    | _ => cases hface
  · rintro ⟨term, faces, total, hstep, hface⟩
    exact ⟨_, hstep, hface⟩

/-- Something holds of every roll step. -/
def AllRolls (P : DiceTerm → List Face → Number → Prop) (t : Trace) : Prop :=
  ∀ term faces total, .roll term faces total ∈ t.steps → P term faces total

theorem allRolls_empty (P : DiceTerm → List Face → Number → Prop) : AllRolls P {} := by
  intro term faces total hmem
  cases hmem

variable {P : DiceTerm → List Face → Number → Prop} {t : Trace}

theorem AllRolls.push (h : AllRolls P t) {step : Step} (hstep : step.isRoll = false) :
    AllRolls P (t.push step) := by
  intro term faces total hmem
  rw [steps_push, List.mem_append, List.mem_singleton] at hmem
  rcases hmem with hmem | hmem
  · exact h term faces total hmem
  · rw [← hmem] at hstep
    cases hstep

theorem AllRolls.push_roll (h : AllRolls P t) {term : DiceTerm} {faces : List Face} {total : Number}
    (hroll : P term faces total) : AllRolls P (t.push (.roll term faces total)) := by
  intro other others sum hmem
  rw [steps_push, List.mem_append, List.mem_singleton] at hmem
  rcases hmem with hmem | hmem
  · exact h other others sum hmem
  · cases hmem
    exact hroll

end Trace
end Tabletop
