import Mathlib.Data.Finset.Card
import Tabletop.Proofs.Evaluator.Calls
import Tabletop.Proofs.Roster.Operation

/-!
# Evaluating on a draft

A draft is a context in two ways.  As one that forgets which names were assigned it is the variables that it
holds (`SheetDraft.hom_attributes`), so evaluations on it give what they give on those variables.  As one
that remembers, it is followed by `SheetDraft.Tracks`: the names in it are those of the assignments since it
was taken, each once, and a name has the value assigned last or else the one that it was taken with.

From both, evaluating for an id and committing the draft is evaluating on the attributes themselves.
-/

namespace Tabletop

namespace SheetDraft

theorem hom_attributes : Context.Hom SheetDraft.attributes where
  get _ _ := rfl
  set _ _ _ := rfl

theorem lawful : Context.Lawful SheetDraft where
  get_set draft name other v := Variables.lawful.get_set draft.attributes name other v

/-! ## What a draft remembers -/

/-- A draft that was `taken`, after assignments have been made to it. -/
structure Tracks (taken draft : SheetDraft) (assignments : List (String × Value)) : Prop where
  target : draft.target = taken.target
  nodup : draft.assigned.Nodup
  mem_assigned : ∀ name, name ∈ draft.assigned ↔ name ∈ assignments.map Prod.fst
  value : ∀ name, Context.get draft name =
    (assignments.reverse.lookup name).or (Context.get taken name)

theorem tracks_taken {taken : SheetDraft} (h : taken.assigned = []) : Tracks taken taken [] where
  target := rfl
  nodup := h ▸ List.nodup_nil
  mem_assigned name := by rw [h, List.map_nil]
  value _ := rfl

theorem target_commit (writes : Writes) (draft : SheetDraft) :
    (writes.commit draft).target = draft.target := by
  induction writes generalizing draft with
  | nil => rfl
  | cons write writes ih => exact ih (Context.set draft write.1 write.2)

theorem mem_assigned_set (draft : SheetDraft) (name other : String) (v : Value) :
    other ∈ (Context.set draft name v).assigned ↔ other ∈ draft.assigned ∨ other = name := by
  show other ∈ (if draft.assigned.contains name then draft.assigned else draft.assigned ++ [name]) ↔ _
  by_cases hmem : name ∈ draft.assigned
  · rw [if_pos (List.contains_iff_mem.2 hmem)]
    exact ⟨.inl, fun h => h.elim id (· ▸ hmem)⟩
  · rw [if_neg (mt List.contains_iff_mem.1 hmem), List.mem_append, List.mem_singleton]

/-- No name comes to stand twice. -/
theorem nodup_assigned_set {draft : SheetDraft} (h : draft.assigned.Nodup) (name : String) (v : Value) :
    (Context.set draft name v).assigned.Nodup := by
  show (if draft.assigned.contains name then draft.assigned else draft.assigned ++ [name]).Nodup
  by_cases hmem : name ∈ draft.assigned
  · rw [if_pos (List.contains_iff_mem.2 hmem)]
    exact h
  · rw [if_neg (mt List.contains_iff_mem.1 hmem), ← List.concat_eq_append]
    exact h.concat hmem

theorem assigned_commit {draft : SheetDraft} (h : draft.assigned.Nodup) (writes : Writes) :
    (writes.commit draft).assigned.Nodup ∧
      ∀ name, name ∈ (writes.commit draft).assigned ↔
        name ∈ draft.assigned ∨ name ∈ writes.map Prod.fst := by
  induction writes generalizing draft with
  | nil => exact ⟨h, fun name => by rw [List.map_nil, or_iff_left List.not_mem_nil]; rfl⟩
  | cons write writes ih =>
    obtain ⟨hnodup, hmem⟩ := ih (nodup_assigned_set h write.1 write.2)
    refine ⟨hnodup, fun name => (hmem name).trans ?_⟩
    rw [mem_assigned_set, List.map_cons, List.mem_cons, or_assoc]

/-- Writing what assignments leave is as good as making the assignments. -/
theorem Tracks.commit {taken draft : SheetDraft} {assignments : List (String × Value)}
    (h : Tracks taken draft assignments) (later : List (String × Value)) :
    Tracks taken ((Writes.ofAssignments later).commit draft) (assignments ++ later) := by
  obtain ⟨hnodup, hmem⟩ := assigned_commit h.nodup (Writes.ofAssignments later)
  refine ⟨(target_commit _ _).trans h.target, hnodup, fun name => ?_, fun name => ?_⟩
  · rw [hmem, h.mem_assigned, Writes.map_fst_ofAssignments, List.mem_eraseDups, List.map_append,
      List.mem_append]
  · rw [Writes.get_commit lawful (Writes.nodup_ofAssignments later), Writes.get?_ofAssignments,
      h.value, List.reverse_append, List.lookup_append, Option.or_assoc]

/-- The induction is on the calls. -/
theorem Tracks.contextAfter {taken draft : SheetDraft} {assignments : List (String × Value)}
    (h : Tracks taken draft assignments) (calls : List Call) :
    Tracks taken (Call.contextAfter draft calls) (assignments ++ Call.assignments draft calls) := by
  induction calls generalizing draft assignments with
  | nil => rwa [Call.assignments, List.append_nil]
  | cons call calls ih =>
    have hcall := h.commit (call.assigned draft)
    rw [← call.context_answer] at hcall
    rw [Call.assignments, ← List.append_assoc]
    exact ih hcall

/-! ## What a draft writes -/

/-- An attribute that was assigned has the value that it has in the draft. -/
theorem get_applyTo (draft : SheetDraft) (attributes : Variables) (name : String) :
    Context.get (draft.applyTo attributes) name =
      (if name ∈ draft.assigned then Context.get draft name else none).or
        (Context.get attributes name) := by
  rw [applyTo]
  -- the induction is on the names that are left to be written
  generalize draft.assigned = names
  induction names generalizing attributes with
  | nil => rfl
  | cons other names ih =>
    rw [List.foldl_cons, ih]
    cases hother : draft.attributes[other]? with
    | none =>
      by_cases hname : other = name
      · subst hname
        have hget : Context.get draft other = none := hother
        rw [hget, ite_self, ite_self]
      · simp [Ne.symm hname]
    | some v =>
      show _ = (if name ∈ other :: names then Context.get draft name else none).or _
      rw [show Context.get (attributes.insert other v) name = _ from
        Variables.lawful.get_set attributes other name v]
      by_cases hname : other = name
      · subst hname
        have hget : Context.get draft other = some v := hother
        rw [hget, if_pos rfl, if_pos List.mem_cons_self]
        split <;> rfl
      · rw [if_neg hname]
        simp [Ne.symm hname]

theorem lookup_reverse_eq_none {assignments : List (String × Value)} {name : String}
    (h : name ∉ assignments.map Prod.fst) : assignments.reverse.lookup name = none := by
  rw [List.lookup_eq_none_iff]
  intro assignment hmem
  rw [bne_iff_ne]
  rintro rfl
  exact h (List.mem_map_of_mem (List.mem_reverse.1 hmem))

theorem lookup_reverse_isSome {assignments : List (String × Value)} {name : String}
    (h : name ∈ assignments.map Prod.fst) : ∃ v, assignments.reverse.lookup name = some v := by
  obtain ⟨assignment, hmem, rfl⟩ := List.mem_map.1 h
  rw [← Option.isSome_iff_exists, List.lookup_isSome_iff]
  exact ⟨assignment, List.mem_reverse.2 hmem, beq_self_eq_true _⟩

/-- The attributes of a sheet after a draft was written to it: those that were assigned have the value that
was assigned last, and no other value of the draft is written. -/
theorem Tracks.get_applyTo {taken draft : SheetDraft} {assignments : List (String × Value)}
    (h : Tracks taken draft assignments) (attributes : Variables) (name : String) :
    Context.get (draft.applyTo attributes) name =
      (assignments.reverse.lookup name).or (Context.get attributes name) := by
  have hassigned := h.mem_assigned name
  rw [SheetDraft.get_applyTo]
  by_cases hmem : name ∈ assignments.map Prod.fst
  · obtain ⟨v, hv⟩ := lookup_reverse_isSome hmem
    rw [if_pos (hassigned.2 hmem), h.value, hv]
    rfl
  · rw [if_neg (mt hassigned.1 hmem), lookup_reverse_eq_none hmem]

/-- Written to the attributes that it was taken with, a draft makes them its own. -/
theorem Tracks.applyTo_taken {taken draft : SheetDraft} {assignments : List (String × Value)}
    (h : Tracks taken draft assignments) : draft.applyTo taken.attributes = draft.attributes := by
  refine Variables.ext fun name => ?_
  rw [h.get_applyTo]
  exact (h.value name).symm

/-- What is counted are the names that were assigned. -/
theorem Tracks.length_assigned {taken draft : SheetDraft} {assignments : List (String × Value)}
    (h : Tracks taken draft assignments) :
    draft.assigned.length = (assignments.map Prod.fst).toFinset.card := by
  rw [← List.toFinset_card_of_nodup h.nodup]
  congr 1
  ext name
  rw [List.mem_toFinset, List.mem_toFinset, h.mem_assigned]

theorem Tracks.isEmpty_assigned {taken draft : SheetDraft} {assignments : List (String × Value)}
    (h : Tracks taken draft assignments) :
    draft.assigned.isEmpty ↔ (assignments.map Prod.fst).toFinset = ∅ := by
  rw [List.isEmpty_iff, ← List.length_eq_zero_iff, h.length_assigned, Finset.card_eq_zero]

end SheetDraft

namespace Roster

/-- The attributes of the sheet with an id. -/
def attributesOf (roster : Roster) (id : String) : Variables :=
  ((roster.get? id).map Sheet.attributes).getD ∅

theorem attributesOf_of_present {roster : Roster} {id : String} {sheet : Sheet}
    (h : roster.get? id = some sheet) : roster.attributesOf id = sheet.attributes := by
  rw [attributesOf, h]
  rfl

/-- Committed to the sheet that it was taken from, a draft gives the sheet all its attributes. -/
theorem commit_of_tracks {roster : Roster} {taken draft : SheetDraft}
    {assignments : List (String × Value)} (h : taken.Tracks draft assignments) {sheet : Sheet}
    (hsheet : roster.get? taken.target = some sheet) (hown : taken.attributes = sheet.attributes) :
    ∃ later, roster.commit draft = .ok (later, draft.assigned.length) ∧
      later.lastStamp = roster.lastStamp ∧
      ∀ other, later.get? other =
        if taken.target = other then some { sheet with attributes := draft.attributes }
        else roster.get? other := by
  rw [← h.target] at hsheet ⊢
  obtain ⟨later, hcommit⟩ := commit_of_present hsheet
  obtain ⟨hstamp, hget⟩ := commit_ok hcommit
  refine ⟨later, hcommit, hstamp, fun other => ?_⟩
  rw [hget]
  by_cases htarget : draft.target = other
  · subst htarget
    rw [if_pos rfl, hsheet, Option.map_some, SheetDraft.writeTo_target, ← hown, h.applyTo_taken]
  · rw [if_neg htarget, SheetDraft.map_writeTo_of_ne htarget]

/-- Evaluating on the draft for an id and committing the draft is evaluating on the attributes of the sheet
that is used for the id.  Every call gives what it gives on these attributes, and leaves its roller in the
same state.  If the calls that succeed have assigned nothing, the commit changes nothing; otherwise, the
sheet has afterwards the attributes that the calls have made of the ones it had, the rest of the roster is
as it was, and the answer is the number of names that were assigned; or the commit is refused because there
is no such sheet. -/
theorem commit_draft_refines (roster : Roster) (id : String) (calls : List Call) :
    let draft := roster.draft id
    let attributes := roster.attributesOf draft.target
    let names := ((Call.assignments attributes calls).map Prod.fst).toFinset
    let commit := Action.commit (Call.contextAfter draft calls)
    (∀ before call after, calls = before ++ call :: after →
      (call.answer (Call.contextAfter draft before)).result =
          (call.answer (Call.contextAfter attributes before)).result ∧
        (call.answer (Call.contextAfter draft before)).roller =
          (call.answer (Call.contextAfter attributes before)).roller) ∧
    (names = ∅ → commit roster = .ok 0 roster) ∧
    (names ≠ ∅ → roster.get? draft.target = none →
      commit roster = .error (.notFound draft.target) roster) ∧
    ∀ sheet, roster.get? draft.target = some sheet → ∃ later,
      commit roster = .ok names.card later ∧ later.lastStamp = roster.lastStamp ∧
      ∀ other, later.get? other =
        if draft.target = other then
          some { sheet with attributes := Call.contextAfter attributes calls }
        else roster.get? other := by
  intro draft attributes names commit
  have hhom := SheetDraft.hom_attributes
  have htracks : draft.Tracks (Call.contextAfter draft calls) (Call.assignments attributes calls) := by
    rw [show attributes = draft.attributes from rfl, hhom.assignments]
    exact (SheetDraft.tracks_taken rfl).contextAfter calls
  have hcommit : commit roster = _ := Action.commit_apply _ _
  rw [hcommit]
  refine ⟨fun before call after _ => ?_, fun hempty => ?_, fun hne habsent => ?_,
    fun sheet hsheet => ?_⟩
  · rw [show attributes = draft.attributes from rfl, hhom.contextAfter, hhom.answer]
    exact ⟨rfl, rfl⟩
  · rw [commit_of_isEmpty (htracks.isEmpty_assigned.2 hempty)]
  · rw [← htracks.target] at habsent ⊢
    rw [commit_of_absent (mt htracks.isEmpty_assigned.1 hne) habsent]
  · obtain ⟨later, hlater, hstamp, hget⟩ :=
      commit_of_tracks htracks hsheet (attributesOf_of_present hsheet)
    have hvars : Call.contextAfter attributes calls = (Call.contextAfter draft calls).attributes :=
      hhom.contextAfter draft calls
    rw [hlater, hvars, htracks.length_assigned]
    exact ⟨later, rfl, hstamp, hget⟩

end Roster
end Tabletop
