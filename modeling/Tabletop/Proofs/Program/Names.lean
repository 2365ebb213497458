import Tabletop.Program.Source
import Tabletop.Proofs.Run.Safety
import Tabletop.Proofs.Script.Soundness
import Tabletop.Proofs.Trace.Text

/-!
# Names in programs and traces

A program that was compiled from a text, `Program.Compiled`, is about no names but those that are tokens of the
text or of a script inside it (`Program.Compiled.allNamed`).  The steps of a run have their names from the
instructions that leave them, so no other name comes into its trace (`Run.named_of_program_ok`).
-/

namespace Tabletop

/-! ## Names of tokens -/

/-- If the token is a name, then by its text too. -/
def Token.Named (t : Token) : Prop :=
  t.kind = .identifier → t.text ∈ TokenKind.identifier.pattern

theorem Token.named_of_mem_scan {start : Nat} {cs : List Char} {t : Token} (ht : t ∈ scan start cs) :
    t.Named :=
  fun hkind => mem_pattern_of_mem_scan ht hkind (by decide)

theorem Token.Named.isName {t : Token} (h : t.Named) (hkind : t.kind = .identifier) :
    IsName (String.ofList t.text) := by
  rw [IsName, String.toList_ofList]
  exact h hkind

/-! ## Names of instructions -/

/-- The name that the instruction is about, if it is about one, is a name as scripts have them. -/
def Instruction.Named : Instruction → Prop
  | load name | store name => IsName name
  | _ => True

/-- All instructions are about names as scripts have them. -/
def AllNamed (code : List Instruction) : Prop :=
  ∀ i ∈ code, i.Named

@[simp]
theorem allNamed_nil : AllNamed [] := by
  intro i hi
  cases hi

@[simp]
theorem allNamed_cons {i : Instruction} {code : List Instruction} :
    AllNamed (i :: code) ↔ i.Named ∧ AllNamed code :=
  List.forall_mem_cons

@[simp]
theorem allNamed_append {code later : List Instruction} :
    AllNamed (code ++ later) ↔ AllNamed code ∧ AllNamed later :=
  List.forall_mem_append

theorem LogicalOperator.named_shortcut (op : LogicalOperator) (target : Nat) :
    (op.shortcut target).Named := by
  cases op <;> trivial

theorem Script.lowerRest_concat (rest : List Expr) (e : Expr) (here : Nat) :
    ∃ place, Script.lowerRest here (rest ++ [e]) =
      Script.lowerRest here rest ++ .pop :: e.lower place := by
  induction rest generalizing here with
  | nil => exact ⟨here + 1, by simp [Script.lowerRest]⟩
  | cons first rest ih =>
    obtain ⟨place, hplace⟩ := ih (here + 1 + (first.lower (here + 1)).length)
    exact ⟨place, by simp [Script.lowerRest, hplace]⟩

/-- The expression at the end of a script is behind all others in its program. -/
theorem Script.lower_snoc (s : Script) (e : Expr) (here : Nat) :
    ∃ place, (s.snoc e).lower here = s.lower here ++ .pop :: e.lower place := by
  cases s with
  | mk first rest =>
    obtain ⟨place, hplace⟩ := lowerRest_concat rest e (here + (first.lower here).length)
    exact ⟨place, by simp [snoc, lower, hplace]⟩

mutual

theorem Expr.Reads.allNamed {phrase : Phrase} {ts : List Token} {e : Expr}
    (h : Expr.Reads phrase ts e) (hts : ∀ t ∈ ts, t.Named) (here : Nat) : AllNamed (e.lower here) :=
  match h with
  | .assignment hname _ h => by
    obtain ⟨hnamed, hrest⟩ := List.forall_mem_cons.1 hts
    simp only [Expr.lower, allNamed_append, allNamed_cons, allNamed_nil, and_true]
    exact ⟨h.allNamed (List.forall_mem_cons.1 hrest).2 here, hnamed.isName hname⟩
  | .expr h => h.allNamed hts here
  | .conditional _ _ hc ht he => by
    obtain ⟨hleft, hes⟩ := List.forall_mem_append.1 hts
    obtain ⟨hcs, hts⟩ := List.forall_mem_append.1 hleft
    simp only [Expr.lower, List.append_assoc, List.cons_append, allNamed_append, allNamed_cons]
    exact ⟨hc.allNamed hcs _, trivial, ht.allNamed (List.forall_mem_cons.1 hts).2 _, trivial,
      he.allNamed (List.forall_mem_cons.1 hes).2 _⟩
  | .ternary h => h.allNamed hts here
  | @Expr.Reads.chain _ _ op _ _ l r _ _ hl hr => by
    obtain ⟨hls, hrs⟩ := List.forall_mem_append.1 hts
    have hleft := hl.allNamed hls
    have hright := hr.allNamed (List.forall_mem_cons.1 hrs).2
    cases op with
    | binary op =>
      simp only [Connective.join, Expr.lower, List.append_assoc, allNamed_append, allNamed_cons,
        allNamed_nil, and_true]
      exact ⟨hleft _, hright _, trivial⟩
    | logical op =>
      simp only [Connective.join, Expr.lower, List.append_assoc, List.cons_append, allNamed_append,
        allNamed_cons, allNamed_nil, and_true]
      exact ⟨hleft _, op.named_shortcut _, hright _, trivial, trivial, trivial⟩
  | .part _ h => h.allNamed hts here
  | .sign _ h => by
    simp only [Expr.lower, allNamed_append, allNamed_cons, allNamed_nil, and_true]
    exact ⟨h.allNamed (List.forall_mem_cons.1 hts).2 here, trivial⟩
  | .least _ _ _ => by simp [Expr.lower, Instruction.Named]
  | .unary h => h.allNamed hts here
  | .integer _ _ => by simp [Expr.lower, Instruction.Named]
  | .dice _ _ => by simp [Expr.lower, Instruction.Named]
  | .name ht => by
    simp only [Expr.lower, allNamed_cons, allNamed_nil, and_true]
    exact (hts _ List.mem_cons_self).isName ht
  | .string _ => by simp [Expr.lower, Instruction.Named]
  | .template _ _ h => by
    simp only [Expr.lower, allNamed_append, allNamed_cons, allNamed_nil, and_true]
    exact ⟨h.allNamed here, trivial⟩
  | .paren _ _ h =>
    h.allNamed (List.forall_mem_append.1 (List.forall_mem_cons.1 hts).2).1 here

theorem Segment.Reads.allNamed {pieces : List Piece} {segments : List Segment}
    (h : Segment.Reads pieces segments) (here : Nat) : AllNamed (Segment.lowerAll here segments) :=
  match h with
  | .nil => allNamed_nil
  | .text h => by
    simp only [Segment.lowerAll, Segment.lower, allNamed_append, allNamed_cons, allNamed_nil, and_true]
    exact ⟨trivial, h.allNamed _⟩
  | .code hscript h => by
    simp only [Segment.lowerAll, Segment.lower, allNamed_append]
    exact ⟨hscript.allNamed (fun t ht => Token.named_of_mem_scan ht) here, h.allNamed _⟩

theorem Script.Reads.allNamed {phrase : Phrase} {ts : List Token} {s : Script}
    (h : Script.Reads phrase ts s) (hts : ∀ t ∈ ts, t.Named) (here : Nat) : AllNamed (s.lower here) :=
  match h with
  | .program h => h.allNamed hts here
  | .trailing _ h => h.allNamed (List.forall_mem_append.1 hts).1 here
  | .item h => by
    simp only [Script.single, Script.lower, Script.lowerRest, List.append_nil]
    exact h.allNamed hts here
  | @Script.Reads.sequence _ _ _ s e _ hl hr => by
    obtain ⟨hls, hrs⟩ := List.forall_mem_append.1 hts
    obtain ⟨place, hplace⟩ := s.lower_snoc e here
    rw [hplace, allNamed_append, allNamed_cons]
    exact ⟨hl.allNamed hls here, trivial, hr.allNamed (List.forall_mem_cons.1 hrs).2 place⟩

end

/-! ## Programs of texts -/

/-- The program of a text that is read as a script or as the body of a template. -/
def Program.Compiled (p : Program) : Prop :=
  ∃ source : String, Program.ofSource source = .ok p ∨ Program.ofTemplate source = .ok p

theorem Program.Compiled.allNamed {p : Program} (h : p.Compiled) : AllNamed p.code := by
  obtain ⟨source, h | h⟩ := h
  · cases hscript : Script.ofSource source with
    | error why =>
      rw [ofSource, hscript] at h
      cases h
    | ok script =>
      rw [ofSource, hscript] at h
      cases h
      exact (Script.reads_of_read hscript).allNamed (fun t ht => Token.named_of_mem_scan ht) 0
  · cases hbody : Segment.readBody 0 source.toList with
    | error why =>
      rw [ofTemplate, Script.ofTemplate, hbody] at h
      cases h
    | ok segments =>
      rw [ofTemplate, Script.ofTemplate, hbody] at h
      cases h
      obtain ⟨hreads, -⟩ := Segment.reads_of_mapM (fun _ _ _ _ => Script.reads_of_read) hbody
      have hsegments := hreads.allNamed 0
      simp only [Script.compile, Script.single, Script.lower, Script.lowerRest, List.append_nil,
        Expr.lower, allNamed_append, allNamed_cons, allNamed_nil, and_true]
      exact ⟨hsegments, trivial⟩

/-! ## Names in traces -/

namespace Run

variable {ρ : Type} [Roller ρ] {setting : Setting} {p q : Progress ρ}

/-- A step has its name from the instruction that leaves it. -/
theorem Advances.named {here place : Nat} {i : Instruction} {stack stack' : List Value}
    (h : Advances setting here i stack p place stack' q) (hi : i.Named)
    (hp : ∀ step ∈ p.trace.steps, step.Named) : ∀ step ∈ q.trace.steps, step.Named := by
  have hpush : ∀ step : Step, step.Named → ∀ other ∈ (p.trace.push step).steps, other.Named := by
    intro step hstep
    rw [Trace.steps_push]
    exact List.forall_mem_append.2 ⟨hp, List.forall_mem_singleton.2 hstep⟩
  cases h with
  | roll h =>
    obtain ⟨-, _, -, rfl⟩ := rollDice_ok h
    exact hpush (.roll ..) trivial
  | load h =>
    obtain ⟨-, rfl⟩ := load_ok h
    exact hpush (.load ..) hi
  | store => exact hpush (.store ..) hi
  | unary h =>
    obtain ⟨-, rfl⟩ := unary_ok h
    exact hpush (.unary ..) trivial
  | binary h =>
    obtain ⟨-, rfl⟩ := binary_ok h
    exact hpush (.binary ..) trivial
  | _ => exact hp

theorem Reaches.named {code : List Instruction} {done : List (Instruction × List Value)} {place : Nat}
    {stack : List Value} (h : Reaches setting code p done place stack q) (hcode : AllNamed code)
    (hp : ∀ step ∈ p.trace.steps, step.Named) : ∀ step ∈ q.trace.steps, step.Named := by
  induction h with
  | start => exact hp
  | next _ hi hstep ih => exact hstep.named (hcode _ (List.mem_of_getElem? hi)) ih

/-- The trace of a run has no names but those of the program. -/
theorem named_of_program_ok {program : Program} {roller : ρ} {v : Value}
    (h : Run.program program setting { roller } = .ok v q) (hcode : AllNamed program.code) :
    ∀ step ∈ q.trace.steps, step.Named := by
  rw [program_apply] at h
  split at h
  · rename_i hrun
    cases h
    obtain ⟨done, place, hreaches, -⟩ := reaches_of_code_ok hrun
    exact hreaches.named hcode (by simp [Trace.steps])
  · cases h
  · cases h

end Run
end Tabletop
