import Tabletop.Proofs.Run.Safety
import Tabletop.Proofs.Run.Writes

/-!
# What a run does to its progress

However a program goes through its instructions, its progress changes in one of six ways only: not at
all, or by a step that is added to the trace together with what the step stands for.  `Run.Proceeds`
lists them.  What each of them keeps holds at the end of every run (`keeps_of_program_ok`), so what is
proved about traces is proved for six cases and not for every instruction.
-/

namespace Tabletop.Run

variable {ρ : Type} [Roller ρ]

/-- The progress `p` becomes `q` when one instruction is carried out. -/
inductive Proceeds (setting : Setting) (p : Progress ρ) : Progress ρ → Prop
  | silent : Proceeds setting p p
  | roll {term total} (hlimit : WithinLimit term setting p)
    (htotal : Face.total? (term.facesFrom setting.rule p.roller) = some total) :
    Proceeds setting p { thrown term setting p with
      trace := p.trace.push (.roll term (term.facesFrom setting.rule p.roller) total) }
  | load {name v} (hv : (p.writes.get? name).or (setting.lookup name) = some v) :
    Proceeds setting p { p with trace := p.trace.push (.load name v) }
  | store {name v} :
    Proceeds setting p
      { p with writes := p.writes.set name v, trace := p.trace.push (.store name v) }
  | unary {op v r} (hr : op.apply v = .ok r) :
    Proceeds setting p { p with trace := p.trace.push (.unary op v r) }
  | binary {op l r v} (hv : op.apply l r = .ok v) :
    Proceeds setting p { p with trace := p.trace.push (.binary l op r v) }

variable {setting : Setting} {p q : Progress ρ}

theorem Advances.proceeds {here place : Nat} {i : Instruction} {stack stack' : List Value}
    (h : Advances setting here i stack p place stack' q) : Proceeds setting p q := by
  cases h with
  | roll h =>
    obtain ⟨hlimit, total, htotal, rfl⟩ := rollDice_ok h
    exact .roll hlimit htotal
  | load h =>
    obtain ⟨hv, rfl⟩ := load_ok h
    exact .load hv
  | store => exact .store
  | unary h =>
    obtain ⟨hr, rfl⟩ := unary_ok h
    exact .unary hr
  | binary h =>
    obtain ⟨hv, rfl⟩ := binary_ok h
    exact .binary hv
  | _ => exact .silent

/-- Dice are thrown by rolls alone: any other change leaves everything as it is, or adds a step that is no
roll. -/
theorem Proceeds.roll_or (h : Proceeds setting p q) :
    (∃ term total, Face.total? (term.facesFrom setting.rule p.roller) = some total ∧
      q = { thrown term setting p with
        trace := p.trace.push (.roll term (term.facesFrom setting.rule p.roller) total) }) ∨
      q = p ∨
      ∃ (step : Step) (writes : Writes), step.isRoll = false ∧
        q = { p with writes, trace := p.trace.push step } := by
  cases h with
  | silent => exact .inr (.inl rfl)
  | roll _ htotal => exact .inl ⟨_, _, htotal, rfl⟩
  | load | unary _ | binary _ => exact .inr (.inr ⟨_, p.writes, rfl, rfl⟩)
  | store => exact .inr (.inr ⟨_, _, rfl, rfl⟩)

/-- What every change of the progress keeps holds wherever a run has come. -/
theorem Reaches.keeps {Inv : Progress ρ → Prop} {code : List Instruction}
    {done : List (Instruction × List Value)} {place : Nat} {stack : List Value}
    (h : Reaches setting code p done place stack q) (hstart : Inv p)
    (hkeeps : ∀ q r, Proceeds setting q r → Inv q → Inv r) : Inv q := by
  induction h with
  | start => exact hstart
  | next _ _ hstep ih => exact hkeeps _ _ hstep.proceeds ih

/-- What every change of the progress keeps holds at the end of a run. -/
theorem keeps_of_program_ok {Inv : Progress ρ → Prop} {program : Program} {v : Value}
    (h : Run.program program setting p = .ok v q) (hstart : Inv p)
    (hkeeps : ∀ q r, Proceeds setting q r → Inv q → Inv r) : Inv q := by
  rw [program_apply] at h
  split at h
  · rename_i hcode
    cases h
    obtain ⟨done, place, hreaches, _⟩ := reaches_of_code_ok hcode
    exact hreaches.keeps hstart hkeeps
  · cases h
  · cases h

/-- No name waits twice. -/
theorem Proceeds.nodup (h : Proceeds setting p q) (hp : (p.writes.map Prod.fst).Nodup) :
    (q.writes.map Prod.fst).Nodup := by
  cases h with
  | store => exact Writes.nodup_set hp _ _
  | _ => exact hp

theorem nodup_of_program_ok {program : Program} {roller : ρ} {v : Value}
    (h : Run.program program setting { roller } = .ok v q) : (q.writes.map Prod.fst).Nodup :=
  keeps_of_program_ok h List.nodup_nil fun _ _ h => h.nodup

end Tabletop.Run
