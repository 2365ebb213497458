import Tabletop.Proofs.Evaluator.Answers
import Tabletop.Proofs.Run.Lockstep
import Tabletop.Proofs.Run.Steps

/-!
# Marking big fails

An evaluation that marks big fails and one that does not differ in the marks alone.  The two runs go in
lockstep: what the one has done is what the other has done once the marks are erased, `unmarked`.  The
roller is the same in both at every step, so they throw the same dice.

The marks themselves are those of the rule, and the flag tells whether there is one.
-/

namespace Tabletop

/-! ## Erasing the marks -/

/-- A face without the mark of a big fail. -/
def Face.unmarked (face : Face) : Face :=
  { face with bigFail := false }

/-- A step without the marks of its faces. -/
def Step.unmarked : Step → Step
  | .roll term faces total => .roll term (faces.map Face.unmarked) total
  | step => step

/-- A trace without the marks of its faces. -/
def Trace.unmarked (t : Trace) : Trace :=
  { log := t.log.map Step.unmarked }

/-- An evaluation without the marks and the flag. -/
def Evaluation.unmarked (e : Evaluation) : Evaluation :=
  { e with trace := e.trace.unmarked, bigFail := false }

/-- The progress of a run without the marks and the flag. -/
def Progress.unmarked {ρ : Type} (p : Progress ρ) : Progress ρ :=
  { p with trace := p.trace.unmarked, bigFail := false }

/-- The result of a run without the marks and the flag that it leaves. -/
def Run.unmarked {ρ α : Type} :
    EStateM.Result RunError (Progress ρ) α → EStateM.Result RunError (Progress ρ) α
  | .ok a p => .ok a p.unmarked
  | .error why p => .error why p.unmarked

/-- The setting in which nothing is marked. -/
def Setting.unmarked (setting : Setting) : Setting :=
  { setting with rule := none }

@[simp]
theorem Trace.unmarked_push (t : Trace) (step : Step) :
    (t.push step).unmarked = t.unmarked.push step.unmarked := by
  simp [unmarked, push]

theorem Progress.unmarked_push {ρ : Type} (p : Progress ρ) (step : Step) :
    Progress.unmarked { p with trace := p.trace.push step } =
      { p.unmarked with trace := p.unmarked.trace.push step.unmarked } := by
  simp [unmarked]

theorem DiceTerm.judge_none (term : DiceTerm) (rule : Option BigFailRule) (thrown : List UInt32) :
    term.judge none thrown = (term.judge rule thrown).map Face.unmarked := by
  rw [judge_eq, judge_eq, List.map_map]
  refine List.map_congr_left ?_
  rintro ⟨value, dropped⟩ _
  show Face.mk value dropped (!dropped && false) = Face.mk value dropped false
  rw [Bool.and_false]

theorem Face.total?_unmarked (faces : List Face) : total? (faces.map unmarked) = total? faces := by
  rw [total?, total?, List.filter_map, List.foldlM_map]
  rfl

/-! ## Two runs -/

namespace Run

variable {ρ : Type} [Roller ρ]

/-- No effect looks at a mark. -/
theorem lockstep_unmarked (setting : Setting) :
    Lockstep (fun p q : Progress ρ => q = p.unmarked) setting setting.unmarked where
  rollDice term p q hpq := by
    subst hpq
    have hfaces : term.facesFrom setting.unmarked.rule p.unmarked.roller =
        (term.facesFrom setting.rule p.roller).map Face.unmarked := term.judge_none _ _
    have hthrown : thrown term setting.unmarked p.unmarked = (thrown term setting p).unmarked := by
      have hnone : ((term.facesFrom setting.rule p.roller).map Face.unmarked).any (·.bigFail) =
          false := by
        simp [Face.unmarked]
      rw [thrown, hfaces, hnone]
      rfl
    refine Agree.rollDice term rfl ?_ ?_ rfl hthrown fun total => ?_
    · rw [hfaces, Face.total?_unmarked]
    · rw [hfaces, List.isEmpty_map]
    · rw [hthrown, hfaces]
      exact ((thrown term setting p).unmarked_push (.roll ..)).symm
  load name p q hpq := by
    subst hpq
    exact Agree.load name rfl rfl fun v => (p.unmarked_push (.load name v)).symm
  store name v p q hpq := by
    subst hpq
    exact .ok (Progress.unmarked_push { p with writes := p.writes.set name v } (.store name v)).symm
  unary op v p q hpq := by
    subst hpq
    exact Agree.unary op v rfl fun r => (p.unmarked_push (.unary op v r)).symm
  binary op l r p q hpq := by
    subst hpq
    exact Agree.binary op l r rfl fun v => (p.unmarked_push (.binary l op r v)).symm

theorem program_unmarked (program : Program) (setting : Setting) (roller : ρ) :
    Run.program program setting.unmarked { roller } =
      unmarked (Run.program program setting { roller }) := by
  have hstart : ({ roller } : Progress ρ) = Progress.unmarked { roller } := by
    simp [Progress.unmarked, Trace.unmarked]
  have hagree := (lockstep_unmarked setting).program hstart program
  rcases hagree.elim with ⟨v, p, q, hp, hq, rfl⟩ | ⟨why, p, q, hp, hq, rfl⟩ <;> rw [hp, hq] <;> rfl

/-- The faces so far are marked as the rule says, and the flag tells whether one of them is. -/
structure TracksMarks (rule : Option BigFailRule) (p : Progress ρ) : Prop where
  marks : p.trace.AllRolls fun term faces _ => ∀ face ∈ faces,
    face.bigFail =
      (!face.dropped && rule.any fun isBigFail => isBigFail term.sides.faces.val face.value)
  flag : p.bigFail = p.trace.faces.any (·.bigFail)

theorem Proceeds.tracksMarks {setting : Setting} {p q : Progress ρ} (h : Proceeds setting p q)
    (hp : TracksMarks setting.rule p) : TracksMarks setting.rule q := by
  rcases h.roll_or with ⟨term, total, _, rfl⟩ | rfl | ⟨step, writes, hstep, rfl⟩
  · refine { marks := hp.marks.push_roll fun _ => DiceTerm.bigFail_of_mem_judge, flag := ?_ }
    rw [Trace.faces_push, List.any_append, ← hp.flag]
    rfl
  · exact hp
  · refine { marks := hp.marks.push hstep, flag := ?_ }
    rw [Trace.faces_push, Step.faces_eq_nil hstep, List.append_nil]
    exact hp.flag

end Run

/-! ## Every evaluation -/

/-- The marks of an evaluation are those of the rule, which is asked about the faces that count, and the
flag tells whether there is one. -/
structure Evaluation.MarkedBy (rule : BigFailRule) (e : Evaluation) : Prop where
  marks : ∀ term faces total, .roll term faces total ∈ e.trace.steps → ∀ face ∈ faces,
    (face.bigFail = true ↔
      face.dropped = false ∧ rule term.sides.faces.val face.value = true)
  flag : e.bigFail = true ↔ ∃ face ∈ e.trace.faces, face.bigFail = true

/-- Nothing in an evaluation is marked. -/
structure Evaluation.NothingMarked (e : Evaluation) : Prop where
  marks : ∀ face ∈ e.trace.faces, face.bigFail = false
  flag : e.bigFail = false

namespace Evaluator

variable {ρ γ : Type} [Roller ρ] [Context γ]

/-- The run behind an evaluation keeps track of the marks. -/
theorem tracksMarks_of_run_ok {ev : Evaluator ρ} {program : Program} {context : γ} {bigFail : Bool}
    {expected : Option ValueType} {e : Evaluation}
    (he : (ev.run program context bigFail expected).result = .ok e) :
    ∃ q : Progress ρ, Run.TracksMarks (ev.setting context bigFail).rule q ∧ e.trace = q.trace ∧
      e.bigFail = q.bigFail := by
  obtain ⟨q, hrun, _, htrace, hflag⟩ := run_ok he
  have hstart : Run.TracksMarks (ev.setting context bigFail).rule ({ roller := ev.roller } : Progress ρ) :=
    ⟨Trace.allRolls_empty _, rfl⟩
  exact ⟨q, Run.keeps_of_program_ok hrun hstart fun _ _ h => h.tracksMarks, htrace, hflag⟩

/-- Whether big fails are marked makes no difference to an answer but the marks. -/
theorem run_false_eq_map_unmarked (ev : Evaluator ρ) (program : Program) (context : γ)
    (expected : Option ValueType) :
    ev.run program context false expected =
      (ev.run program context true expected).map Evaluation.unmarked := by
  have hrun : Run.program program (ev.setting context false) { roller := ev.roller } =
      Run.unmarked (Run.program program (ev.setting context true) { roller := ev.roller }) :=
    Run.program_unmarked program (ev.setting context true) ev.roller
  cases hmarked : Run.program program (ev.setting context true) { roller := ev.roller } with
  | error why q =>
    rw [hmarked] at hrun
    rw [run_of_error hmarked, run_of_error hrun]
    rfl
  | ok v q =>
    rw [hmarked] at hrun
    by_cases htype : ∀ type ∈ expected, v.type = type
    · rw [run_of_ok hmarked htype, run_of_ok hrun htype]
      rfl
    · simp only [Classical.not_forall] at htype
      obtain ⟨type, rfl, hne⟩ := htype
      rw [run_of_type_ne hmarked hne, run_of_type_ne hrun hne]
      rfl

/-- Marking big fails observes and never interferes.  The run that marks nothing is the run that marks
them, once the marks and the flag are erased: both stop with the same error or give the same value, with
the same writes, the same trace and the same roller, which may be one that remembers its dice.  The same
holds of the two answers.  Where big fails are marked, the marks and the flag are those of the rule, and
where they are not, nothing is marked. -/
theorem bigFail_observes (ev : Evaluator ρ) (program : Program) (context : γ)
    (expected : Option ValueType) :
    Run.program program (ev.setting context false) { roller := ev.roller } =
        Run.unmarked (Run.program program (ev.setting context true) { roller := ev.roller }) ∧
      ev.run program context false expected =
        (ev.run program context true expected).map Evaluation.unmarked ∧
      (∀ e, (ev.run program context true expected).result = .ok e → e.MarkedBy ev.rule) ∧
      (∀ e, (ev.run program context false expected).result = .ok e → e.NothingMarked) := by
  refine ⟨Run.program_unmarked program (ev.setting context true) ev.roller,
    run_false_eq_map_unmarked ev program context expected, ?_, ?_⟩
  · intro e he
    obtain ⟨q, htracks, htrace, hflag⟩ := tracksMarks_of_run_ok he
    constructor
    · intro term faces total hmem face hface
      rw [htrace] at hmem
      rw [htracks.marks term faces total hmem face hface]
      show (!face.dropped && ev.rule term.sides.faces.val face.value) = true ↔ _
      rw [Bool.and_eq_true, Bool.not_eq_true']
    · rw [hflag, htracks.flag, htrace, List.any_eq_true]
  · intro e he
    obtain ⟨q, htracks, htrace, hflag⟩ := tracksMarks_of_run_ok he
    have hmarks : ∀ face ∈ q.trace.faces, face.bigFail = false := by
      intro face hface
      obtain ⟨term, faces, total, hmem, hface⟩ := Trace.mem_faces.1 hface
      rw [htracks.marks term faces total hmem face hface]
      exact Bool.and_false _
    constructor
    · rw [htrace]
      exact hmarks
    · rw [hflag, htracks.flag, List.any_eq_false]
      simpa using hmarks

end Evaluator
end Tabletop
