import Tabletop.Program.Lowering
import Tabletop.Proofs.Program.Flow

/-!
# The stack heights of compiled programs

The height of the stack before each instruction of a script can be read off the script: `Script.heights`
lists it, for instructions that start with `base` values on the stack.  The heights do not depend on any
value, nor on the way that is taken.

The main statement is that these heights fit the program of the script, `Script.fits_compile`.  It is
proved for the instructions of a tree in their place, where the heights in question are those of the tree
followed by `base + 1`, one more value than at the start.
-/

namespace Tabletop

mutual

/-- The heights of the stack before each instruction of an expression. -/
def Expr.heights (base : Nat) : Expr → List Nat
  | .number _ => [base]
  | .string _ => [base]
  | .dice _ => [base]
  | .name _ => [base]
  | .template segments => Segment.heightsAll base segments ++ [base + segments.length]
  | .paren inner => inner.heights base
  | .unary _ operand => operand.heights base ++ [base + 1]
  | .binary left _ right => left.heights base ++ right.heights (base + 1) ++ [base + 2]
  | .logical left _ right =>
    left.heights base ++ (base + 1) :: right.heights base ++ [base + 1, base + 1, base]
  | .conditional condition consequent alternative =>
    condition.heights base ++ (base + 1) :: consequent.heights base
      ++ (base + 1) :: alternative.heights base
  | .assign _ value => value.heights base ++ [base + 1]

/-- The heights of the stack before each instruction of a piece of a template. -/
def Segment.heights (base : Nat) : Segment → List Nat
  | .text _ => [base]
  | .code script => script.heights base

/-- The heights of the stack before each instruction of the pieces of a template. -/
def Segment.heightsAll (base : Nat) : List Segment → List Nat
  | [] => []
  | segment :: segments => segment.heights base ++ Segment.heightsAll (base + 1) segments

/-- The heights of the stack before each instruction of a script. -/
def Script.heights (base : Nat) : Script → List Nat
  | .mk first rest => first.heights base ++ Script.heightsRest base rest

/-- The heights of the stack before each instruction of the expressions after the first, whose value is
on the stack. -/
def Script.heightsRest (base : Nat) : List Expr → List Nat
  | [] => []
  | e :: rest => (base + 1) :: e.heights base ++ Script.heightsRest base rest

end

/-! ## A height for each instruction -/

mutual

theorem Expr.length_heights (e : Expr) (base here : Nat) :
    (e.heights base).length = (e.lower here).length := by
  match e with
  | .number _ | .string _ | .dice _ | .name _ => rfl
  | .template segments =>
    rw [Expr.heights, Expr.lower, List.length_append, List.length_append,
      Segment.length_heightsAll segments base here]
    rfl
  | .paren inner => rw [Expr.heights, Expr.lower, Expr.length_heights inner base here]
  | .unary _ operand =>
    rw [Expr.heights, Expr.lower, List.length_append, List.length_append,
      Expr.length_heights operand base here]
    rfl
  | .binary left _ right =>
    simp only [Expr.heights, Expr.lower, List.length_append, List.length_singleton,
      Expr.length_heights left base here,
      Expr.length_heights right (base + 1) (here + (left.lower here).length)]
  | .logical left _ right =>
    simp only [Expr.heights, Expr.lower, List.length_append, List.length_cons, List.length_nil,
      Expr.length_heights left base here,
      Expr.length_heights right base (here + (left.lower here).length + 1)]
  | .conditional condition consequent alternative =>
    simp only [Expr.heights, Expr.lower, List.length_append, List.length_cons,
      Expr.length_heights condition base here,
      Expr.length_heights consequent base (here + (condition.lower here).length + 1)]
    rw [Expr.length_heights alternative]
  | .assign _ value =>
    rw [Expr.heights, Expr.lower, List.length_append, List.length_append,
      Expr.length_heights value base here]
    rfl

theorem Segment.length_heights (s : Segment) (base here : Nat) :
    (s.heights base).length = (s.lower here).length := by
  match s with
  | .text _ => rfl
  | .code script => rw [Segment.heights, Segment.lower, Script.length_heights script base here]

theorem Segment.length_heightsAll (segments : List Segment) (base here : Nat) :
    (Segment.heightsAll base segments).length = (Segment.lowerAll here segments).length := by
  match segments with
  | [] => rfl
  | segment :: segments =>
    rw [Segment.heightsAll, Segment.lowerAll, List.length_append, List.length_append,
      Segment.length_heights segment base here, Segment.length_heightsAll segments]

theorem Script.length_heights (s : Script) (base here : Nat) :
    (s.heights base).length = (s.lower here).length := by
  match s with
  | .mk first rest =>
    rw [Script.heights, Script.lower, List.length_append, List.length_append,
      Expr.length_heights first base here, Script.length_heightsRest rest]

theorem Script.length_heightsRest (rest : List Expr) (base here : Nat) :
    (Script.heightsRest base rest).length = (Script.lowerRest here rest).length := by
  match rest with
  | [] => rfl
  | e :: rest =>
    rw [Script.heightsRest, Script.lowerRest, List.length_append, List.length_append,
      List.length_cons, List.length_cons, Expr.length_heights e base (here + 1),
      Script.length_heightsRest rest]

end

/-! ## The height at the start -/

mutual

theorem Expr.heights_eq_cons (e : Expr) (base : Nat) : ∃ tail, e.heights base = base :: tail := by
  match e with
  | .number _ | .string _ | .dice _ | .name _ => exact ⟨[], rfl⟩
  | .template segments => exact Segment.heightsAll_eq_cons segments base
  | .paren inner => exact Expr.heights_eq_cons inner base
  | .unary _ operand =>
    obtain ⟨tail, h⟩ := Expr.heights_eq_cons operand base
    exact ⟨tail ++ [base + 1], by rw [Expr.heights, h, List.cons_append]⟩
  | .binary left _ right =>
    obtain ⟨tail, h⟩ := Expr.heights_eq_cons left base
    exact ⟨tail ++ right.heights (base + 1) ++ [base + 2], by rw [Expr.heights, h]; rfl⟩
  | .logical left _ right =>
    obtain ⟨tail, h⟩ := Expr.heights_eq_cons left base
    exact ⟨tail ++ (base + 1) :: right.heights base ++ [base + 1, base + 1, base], by
      rw [Expr.heights, h]; rfl⟩
  | .conditional condition consequent alternative =>
    obtain ⟨tail, h⟩ := Expr.heights_eq_cons condition base
    exact ⟨tail ++ (base + 1) :: consequent.heights base
      ++ (base + 1) :: alternative.heights base, by rw [Expr.heights, h]; rfl⟩
  | .assign _ value =>
    obtain ⟨tail, h⟩ := Expr.heights_eq_cons value base
    exact ⟨tail ++ [base + 1], by rw [Expr.heights, h, List.cons_append]⟩

theorem Segment.heights_eq_cons (s : Segment) (base : Nat) :
    ∃ tail, s.heights base = base :: tail := by
  match s with
  | .text _ => exact ⟨[], rfl⟩
  | .code script => exact Script.heights_eq_cons script base

theorem Segment.heightsAll_eq_cons (segments : List Segment) (base : Nat) :
    ∃ tail, Segment.heightsAll base segments ++ [base + segments.length] = base :: tail := by
  match segments with
  | [] => exact ⟨[], rfl⟩
  | segment :: segments =>
    obtain ⟨tail, h⟩ := Segment.heights_eq_cons segment base
    rw [Segment.heightsAll, h]
    exact ⟨_, rfl⟩

theorem Script.heights_eq_cons (s : Script) (base : Nat) : ∃ tail, s.heights base = base :: tail := by
  match s with
  | .mk first rest =>
    obtain ⟨tail, h⟩ := Expr.heights_eq_cons first base
    rw [Script.heights, h]
    exact ⟨_, rfl⟩

end

theorem Script.heightsRest_eq_cons (rest : List Expr) (base : Nat) :
    ∃ tail, Script.heightsRest base rest ++ [base + 1] = (base + 1) :: tail := by
  cases rest with
  | nil => exact ⟨[], rfl⟩
  | cons e rest => exact ⟨_, rfl⟩

/-! ## The heights fit -/

theorem LogicalOperator.shortcut_eq (op : LogicalOperator) {target : Nat} :
    op.shortcut target = .jumpIf target ∨ op.shortcut target = .jumpUnless target := by
  cases op
  · exact .inr rfl
  · exact .inl rfl

/-- The heights at the places from `here` on begin with those of a list. -/
def Follows (height : Nat → Nat) (here : Nat) : List Nat → Prop
  | [] => True
  | n :: ns => height here = n ∧ Follows height (here + 1) ns

section

variable {height : Nat → Nat} {here : Nat}

@[simp]
theorem follows_cons {n : Nat} {ns : List Nat} :
    Follows height here (n :: ns) ↔ height here = n ∧ Follows height (here + 1) ns :=
  Iff.rfl

theorem follows_append {ns ms : List Nat} :
    Follows height here (ns ++ ms) ↔
      Follows height here ns ∧ Follows height (here + ns.length) ms := by
  induction ns generalizing here with
  | nil => simp [Follows]
  | cons n ns ih =>
    rw [List.cons_append, follows_cons, follows_cons, ih, List.length_cons, and_assoc,
      Nat.add_assoc, Nat.add_comm 1]

theorem follows_of_getElem? {ns : List Nat}
    (h : ∀ k n, ns[k]? = some n → height (here + k) = n) : Follows height here ns := by
  induction ns generalizing here with
  | nil => trivial
  | cons n ns ih =>
    refine ⟨h 0 n rfl, ih fun k m hk => ?_⟩
    rw [Nat.add_assoc, Nat.add_comm 1]
    exact h (k + 1) m hk

theorem Follows.start {n : Nat} {ns : List Nat} (h : Follows height here ns)
    (hns : ∃ tail, ns = n :: tail) : height here = n := by
  obtain ⟨tail, rfl⟩ := hns
  exact h.1

theorem Follows.start_append {n m : Nat} {ns : List Nat} (h : Follows height here ns)
    (hend : height (here + ns.length) = m) (hns : ∃ tail, ns ++ [m] = n :: tail) :
    height here = n :=
  (follows_append.2 ⟨h, hend, trivial⟩ : Follows height here (ns ++ [m])).start hns

end

mutual

/-- The heights of an expression fit its instructions, if one value more is on the stack behind them. -/
theorem Expr.fits_lower (e : Expr) {height : Nat → Nat} {here base : Nat}
    (h : Follows height here (e.heights base))
    (hend : height (here + (e.lower here).length) = base + 1) :
    Fits height here (here + (e.lower here).length) (e.lower here) := by
  match e with
  | .number _ | .string _ | .dice _ | .name _ =>
    exact ⟨.of_next rfl (Nat.lt_succ_self _) h.1 hend, trivial⟩
  | .template segments =>
    rw [Expr.heights, follows_append, Segment.length_heightsAll segments base here] at h
    rw [Expr.lower, List.length_append, List.length_singleton] at hend ⊢
    have hsegments := Segment.fits_lowerAll segments h.1 h.2.1
    exact fits_append.2 ⟨hsegments.of_le (by omega), .of_next rfl (by omega) h.2.1 hend, trivial⟩
  | .paren inner => exact Expr.fits_lower inner h hend
  | .unary op operand =>
    rw [Expr.heights, follows_append, Expr.length_heights operand base here] at h
    rw [Expr.lower, List.length_append, List.length_singleton] at hend ⊢
    have hoperand := Expr.fits_lower operand h.1 h.2.1
    exact fits_append.2 ⟨hoperand.of_le (by omega), .of_next rfl (by omega) h.2.1 hend, trivial⟩
  | .binary left op right =>
    rw [Expr.heights, List.append_assoc, follows_append, follows_append,
      Expr.length_heights left base here,
      Expr.length_heights right (base + 1) (here + (left.lower here).length)] at h
    obtain ⟨hl, hr, hop, -⟩ := h
    simp only [Expr.lower, List.length_append, List.length_singleton, ← Nat.add_assoc] at hend ⊢
    have hleft := Expr.fits_lower left hl (hr.start (Expr.heights_eq_cons right _))
    have hright := Expr.fits_lower right hr hop
    rw [List.append_assoc, fits_append, fits_append]
    exact ⟨hleft.of_le (by omega), hright.of_le (by omega), .of_next rfl (by omega) hop hend, trivial⟩
  | .logical left op right =>
    rw [Expr.heights, List.append_assoc, follows_append, List.cons_append, follows_cons,
      follows_append, Expr.length_heights left base here,
      Expr.length_heights right base (here + (left.lower here).length + 1)] at h
    obtain ⟨hl, hshort, hr, htruthy, hjump, hpush, -⟩ := h
    simp only [Expr.lower, List.length_append, List.length_cons, List.length_nil,
      ← Nat.add_assoc, Nat.zero_add] at hend ⊢
    have hleft := Expr.fits_lower left hl hshort
    have hright := Expr.fits_lower right hr htruthy
    have hsecond := hr.start (Expr.heights_eq_cons right _)
    have hstop : height (here + (left.lower here).length + 1
        + (right.lower (here + (left.lower here).length + 1)).length + 3) = base + 1 := by
      rw [← hend]
      congr 1
      omega
    simp only [List.append_assoc, List.cons_append, fits_append, fits_cons]
    refine ⟨hleft.of_le (by omega), ?_, hright.of_le (by omega), ?_, ?_, ?_, trivial⟩
    · refine Instruction.fits_of_branch op.shortcut_eq (by omega) (by omega) ?_ ?_
      · rw [hshort, hsecond]
      · rw [hshort]
        exact congrArg (· + 1) hpush.symm
    · exact .of_next rfl (by omega) htruthy hjump
    · exact Instruction.fits_jump (by omega) (by omega) (hstop.trans hjump.symm)
    · exact .of_next rfl (by omega) hpush hstop
  | .conditional condition consequent alternative =>
    rw [Expr.heights, List.append_assoc, follows_append, List.cons_append, follows_cons,
      follows_append, follows_cons, Expr.length_heights condition base here,
      Expr.length_heights consequent base (here + (condition.lower here).length + 1)] at h
    obtain ⟨hc, hbranch, hyes, hjump, hno⟩ := h
    simp only [Expr.lower, List.length_append, List.length_cons, ← Nat.add_assoc] at hend ⊢
    have htest := Expr.fits_lower condition hc hbranch
    have hconsequent := Expr.fits_lower consequent hyes hjump
    have hsecond := hyes.start (Expr.heights_eq_cons consequent _)
    have hthird := hno.start (Expr.heights_eq_cons alternative _)
    have hstop : height (here + (condition.lower here).length + 1
        + (consequent.lower (here + (condition.lower here).length + 1)).length + 1
        + (alternative.lower (here + (condition.lower here).length + 1
          + (consequent.lower (here + (condition.lower here).length + 1)).length + 1)).length)
        = base + 1 := by
      rw [← hend]
      congr 1
      omega
    have halternative := Expr.fits_lower alternative hno hstop
    simp only [List.append_assoc, List.cons_append, fits_append, fits_cons]
    refine ⟨htest.of_le (by omega), ?_, hconsequent.of_le (by omega), ?_,
      halternative.of_le (by omega)⟩
    · refine Instruction.fits_of_branch (.inr rfl) (by omega) (by omega) ?_ ?_
      · rw [hbranch, hsecond]
      · rw [hbranch, hthird]
    · exact Instruction.fits_jump (by omega) (by omega) (hstop.trans hjump.symm)
  | .assign name value =>
    rw [Expr.heights, follows_append, Expr.length_heights value base here] at h
    rw [Expr.lower, List.length_append, List.length_singleton] at hend ⊢
    have hvalue := Expr.fits_lower value h.1 h.2.1
    exact fits_append.2 ⟨hvalue.of_le (by omega), .of_next rfl (by omega) h.2.1 hend, trivial⟩

theorem Segment.fits_lower (s : Segment) {height : Nat → Nat} {here base : Nat}
    (h : Follows height here (s.heights base))
    (hend : height (here + (s.lower here).length) = base + 1) :
    Fits height here (here + (s.lower here).length) (s.lower here) := by
  match s with
  | .text _ => exact ⟨.of_next rfl (Nat.lt_succ_self _) h.1 hend, trivial⟩
  | .code script => exact Script.fits_lower script h hend

theorem Segment.fits_lowerAll (segments : List Segment) {height : Nat → Nat} {here base : Nat}
    (h : Follows height here (Segment.heightsAll base segments))
    (hend : height (here + (Segment.lowerAll here segments).length) = base + segments.length) :
    Fits height here (here + (Segment.lowerAll here segments).length)
      (Segment.lowerAll here segments) := by
  match segments with
  | [] => exact fits_nil
  | segment :: segments =>
    rw [Segment.heightsAll, follows_append, Segment.length_heights segment base here] at h
    rw [Segment.lowerAll, List.length_append, ← Nat.add_assoc, List.length_cons,
      Nat.add_comm segments.length, ← Nat.add_assoc] at hend
    rw [Segment.lowerAll, List.length_append, ← Nat.add_assoc, fits_append]
    have hnext : height (here + (segment.lower here).length) = base + 1 := by
      refine h.2.start_append ?_ (Segment.heightsAll_eq_cons segments _)
      rw [Segment.length_heightsAll, hend]
    have hfirst := Segment.fits_lower segment h.1 hnext
    exact ⟨hfirst.of_le (by omega), Segment.fits_lowerAll segments h.2 hend⟩

theorem Script.fits_lower (s : Script) {height : Nat → Nat} {here base : Nat}
    (h : Follows height here (s.heights base))
    (hend : height (here + (s.lower here).length) = base + 1) :
    Fits height here (here + (s.lower here).length) (s.lower here) := by
  match s with
  | .mk first rest =>
    rw [Script.heights, follows_append, Expr.length_heights first base here] at h
    rw [Script.lower, List.length_append, ← Nat.add_assoc] at hend ⊢
    rw [fits_append]
    have hnext : height (here + (first.lower here).length) = base + 1 := by
      refine h.2.start_append ?_ (Script.heightsRest_eq_cons rest _)
      rw [Script.length_heightsRest, hend]
    have hfirst := Expr.fits_lower first h.1 hnext
    exact ⟨hfirst.of_le (by omega), Script.fits_lowerRest rest h.2 hend⟩

theorem Script.fits_lowerRest (rest : List Expr) {height : Nat → Nat} {here base : Nat}
    (h : Follows height here (Script.heightsRest base rest))
    (hend : height (here + (Script.lowerRest here rest).length) = base + 1) :
    Fits height here (here + (Script.lowerRest here rest).length) (Script.lowerRest here rest) := by
  match rest with
  | [] => exact fits_nil
  | e :: rest =>
    rw [Script.heightsRest, List.cons_append, follows_cons, follows_append,
      Expr.length_heights e base (here + 1)] at h
    obtain ⟨hpop, he, hrest⟩ := h
    simp only [Script.lowerRest, List.length_append, List.length_cons, ← Nat.add_assoc] at hend ⊢
    have hstop : height (here + 1 + (e.lower (here + 1)).length
        + (Script.lowerRest (here + 1 + (e.lower (here + 1)).length) rest).length) = base + 1 := by
      rw [← hend]
      congr 1
      omega
    have hnext : height (here + 1 + (e.lower (here + 1)).length) = base + 1 := by
      refine hrest.start_append ?_ (Script.heightsRest_eq_cons rest _)
      rw [Script.length_heightsRest, hstop]
    have hfirst := Expr.fits_lower e he hnext
    have hmore := Script.fits_lowerRest rest hrest hstop
    have hstart := he.start (Expr.heights_eq_cons e _)
    simp only [List.cons_append, fits_cons, fits_append]
    exact ⟨.of_next rfl (by omega) hpop hstart, hfirst.of_le (by omega), hmore.of_le (by omega)⟩

end

/-! ## Whole programs -/

/-- The height of the stack at a place of the program of a script; behind the last instruction it is
one. -/
def Script.heightAt (script : Script) (place : Nat) : Nat :=
  (script.heights 0)[place]?.getD 1

theorem Script.heightAt_zero (script : Script) : script.heightAt 0 = 0 := by
  obtain ⟨tail, h⟩ := script.heights_eq_cons 0
  rw [heightAt, h, List.getElem?_cons_zero, Option.getD_some]

theorem Script.heightAt_size (script : Script) : script.heightAt script.compile.size = 1 := by
  have hlength : (script.heights 0).length = script.compile.size := script.length_heights 0 0
  rw [heightAt, List.getElem?_eq_none (Nat.le_of_eq hlength), Option.getD_none]

theorem Script.fits_compile (script : Script) :
    Fits script.heightAt 0 script.compile.size script.compile.code := by
  have hfollows : Follows script.heightAt 0 (script.heights 0) := by
    apply follows_of_getElem?
    intro k n hk
    rw [Nat.zero_add, heightAt, hk, Option.getD_some]
  have hend : script.heightAt (0 + (script.lower 0).length) = 0 + 1 := by
    rw [Nat.zero_add]
    exact script.heightAt_size
  have hfits := script.fits_lower hfollows hend
  rwa [Nat.zero_add] at hfits

end Tabletop
