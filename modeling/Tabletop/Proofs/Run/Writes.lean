import Mathlib.Data.List.Induction
import Mathlib.Data.List.Nodup
import Tabletop.Proofs.Run.Execution

/-!
# The assignments that wait

A list of assignments is collected into one write for each name.  `Writes.ofAssignments` is what the
machine makes of the assignments that its store instructions carry out, and the lemmas about it say what a
context is going to see: each name once, in the order of first assignment, with the value assigned last.
-/

namespace Tabletop

namespace Writes

/-! ## One assignment -/

theorem get?_set (writes : Writes) (name other : String) (v : Value) :
    (writes.set name v).get? other = if name = other then some v else writes.get? other := by
  induction writes with
  | nil => rfl
  | cons write writes ih =>
    obtain ⟨key, old⟩ := write
    rw [set]
    by_cases hkey : key = name
    · rw [if_pos hkey, get?, get?, hkey]
      by_cases hother : name = other
      · rw [if_pos hother, if_pos hother]
      · rw [if_neg hother, if_neg hother, if_neg hother]
    · rw [if_neg hkey, get?, get?, ih]
      by_cases hother : name = other
      · rw [if_pos hother, if_pos hother, if_neg (hother ▸ hkey)]
      · rw [if_neg hother, if_neg hother]

/-- A name keeps the position of its first assignment. -/
theorem map_fst_set (writes : Writes) (name : String) (v : Value) :
    (writes.set name v).map Prod.fst =
      if name ∈ writes.map Prod.fst then writes.map Prod.fst else writes.map Prod.fst ++ [name] := by
  induction writes with
  | nil => rfl
  | cons write writes ih =>
    obtain ⟨key, old⟩ := write
    rw [set]
    by_cases hkey : key = name
    · rw [if_pos hkey, List.map_cons, List.map_cons, hkey, if_pos List.mem_cons_self]
    · have hname : name ∈ key :: writes.map Prod.fst ↔ name ∈ writes.map Prod.fst := by
        rw [List.mem_cons, or_iff_right (Ne.symm hkey)]
      rw [if_neg hkey, List.map_cons, List.map_cons, ih]
      by_cases hmem : name ∈ writes.map Prod.fst
      · rw [if_pos hmem, if_pos (hname.2 hmem)]
      · rw [if_neg hmem, if_neg (mt hname.1 hmem), List.cons_append]

/-- No name comes to stand twice. -/
theorem nodup_set {writes : Writes} (h : (writes.map Prod.fst).Nodup) (name : String) (v : Value) :
    ((writes.set name v).map Prod.fst).Nodup := by
  rw [map_fst_set]
  by_cases hmem : name ∈ writes.map Prod.fst
  · rw [if_pos hmem]
    exact h
  · rw [if_neg hmem, ← List.concat_eq_append]
    exact h.concat hmem

/-- Where every name stands once, a write is what its name gives. -/
theorem get?_of_mem {writes : Writes} (hnodup : (writes.map Prod.fst).Nodup) {name : String}
    {v : Value} (h : (name, v) ∈ writes) : writes.get? name = some v := by
  induction writes with
  | nil => cases h
  | cons write writes ih =>
    obtain ⟨key, old⟩ := write
    rw [List.map_cons, List.nodup_cons] at hnodup
    rw [get?]
    rcases List.mem_cons.1 h with h | h
    · obtain ⟨rfl, rfl⟩ := Prod.mk.inj h
      rw [if_pos rfl]
    · have hname : name ∈ writes.map Prod.fst := List.mem_map_of_mem h
      have hkey : key ≠ name := by
        rintro rfl
        exact hnodup.1 hname
      rw [if_neg hkey, ih hnodup.2 h]

/-! ## Many assignments -/

/-- The writes that assignments leave, made one after the other. -/
def ofAssignments (assignments : List (String × Value)) : Writes :=
  assignments.foldl (fun writes (name, v) => writes.set name v) []

theorem ofAssignments_append_singleton (assignments : List (String × Value)) (name : String)
    (v : Value) :
    ofAssignments (assignments ++ [(name, v)]) = (ofAssignments assignments).set name v := by
  rw [ofAssignments, List.foldl_append]
  rfl

theorem map_fst_ofAssignments (assignments : List (String × Value)) :
    (ofAssignments assignments).map Prod.fst = (assignments.map Prod.fst).eraseDups := by
  induction assignments using List.reverseRecOn with
  | nil => rfl
  | append_singleton assignments assignment ih =>
    obtain ⟨name, v⟩ := assignment
    rw [ofAssignments_append_singleton, map_fst_set, ih, List.map_append, List.eraseDups_append]
    by_cases hmem : name ∈ assignments.map Prod.fst
    · have hnew : [name].removeAll (assignments.map Prod.fst) = [] := by
        rw [List.cons_removeAll, if_neg (by simpa using hmem), List.nil_removeAll]
      rw [if_pos (List.mem_eraseDups.2 hmem), List.map_singleton, hnew, List.eraseDups_nil,
        List.append_nil]
    · have hnew : [name].removeAll (assignments.map Prod.fst) = [name] := by
        rw [List.cons_removeAll, if_pos (by simpa using hmem), List.nil_removeAll]
      rw [if_neg (mt List.mem_eraseDups.1 hmem), List.map_singleton, hnew]
      rfl

theorem nodup_ofAssignments (assignments : List (String × Value)) :
    ((ofAssignments assignments).map Prod.fst).Nodup := by
  induction assignments using List.reverseRecOn with
  | nil => exact List.nodup_nil
  | append_singleton assignments assignment ih =>
    rw [ofAssignments_append_singleton]
    exact nodup_set ih _ _

theorem get?_ofAssignments (assignments : List (String × Value)) (name : String) :
    (ofAssignments assignments).get? name = assignments.reverse.lookup name := by
  induction assignments using List.reverseRecOn with
  | nil => rfl
  | append_singleton assignments assignment ih =>
    obtain ⟨other, v⟩ := assignment
    rw [ofAssignments_append_singleton, get?_set, ih, List.reverse_append, List.reverse_singleton,
      List.singleton_append, List.lookup_cons]
    by_cases h : other = name
    · rw [if_pos h, h, beq_self_eq_true]
    · rw [if_neg h, beq_false_of_ne (Ne.symm h)]

end Writes

/-! ## The assignments of a run -/

/-- The assignment that an instruction makes with the stack that it finds. -/
def Instruction.assigned? : Instruction × List Value → Option (String × Value)
  | (.store name, v :: _) => some (name, v)
  | _ => none

/-- The assignments that instructions have made, in the order in which they were carried out. -/
def Instruction.assigned (done : List (Instruction × List Value)) : List (String × Value) :=
  done.filterMap assigned?

namespace Run

variable {ρ : Type} [Roller ρ]

/-- Only a store instruction changes the assignments that wait. -/
theorem Advances.writes_eq {setting : Setting} {here place : Nat} {i : Instruction}
    {stack stack' : List Value} {p q : Progress ρ}
    (h : Advances setting here i stack p place stack' q) :
    q.writes =
      (Instruction.assigned? (i, stack)).elim p.writes fun (name, v) => p.writes.set name v := by
  cases h with
  | roll h =>
    obtain ⟨_, _, _, rfl⟩ := rollDice_ok h
    rfl
  | load h =>
    rw [(load_ok h).2]
    rfl
  | unary h =>
    rw [(unary_ok h).2]
    rfl
  | binary h =>
    rw [(binary_ok h).2]
    rfl
  | _ => rfl

/-- What waits is what the store instructions have assigned so far. -/
theorem Reaches.writes_eq {setting : Setting} {code : List Instruction} {p q : Progress ρ}
    {done : List (Instruction × List Value)} {place : Nat} {stack : List Value}
    (h : Reaches setting code p done place stack q) (hp : p.writes = []) :
    q.writes = Writes.ofAssignments (Instruction.assigned done) := by
  induction h with
  | start => exact hp
  | @next done here stack q i place stack' q' _ _ hstep ih =>
    rw [hstep.writes_eq, ih, Instruction.assigned, Instruction.assigned, List.filterMap_append]
    cases hassigned : Instruction.assigned? (i, stack) with
    | none =>
      rw [List.filterMap_cons_none hassigned, List.filterMap_nil, List.append_nil]
      rfl
    | some assignment =>
      rw [List.filterMap_cons_some hassigned, List.filterMap_nil,
        Writes.ofAssignments_append_singleton]
      rfl

end Run
end Tabletop
