import Mathlib.Data.List.Basic
import Tabletop.Proofs.Roster.Operation

/-!
# Stamps

Every sheet of a roster stands under its own id and has a stamp of its own, which has been given out by
then and stays with the sheet as long as the sheet is there.  Most operations are one change, `Roster.Alters`:
under each id there is no sheet, or the sheet with the id and the stamp that it had, or, under one id only,
a sheet that has come into being with the next stamp.  Only a batch of updates is several changes.

What every change keeps is kept by any history (`after_of_alters`): that a roster is sound, and that no sheet
comes into being with a stamp that was given out before (`lt_created_of_absent`).
-/

namespace Tabletop.Roster

/-- What holds of a roster whatever has been done with it. -/
structure Sound (roster : Roster) : Prop where
  /-- Every sheet stands under its own id. -/
  id_eq : ∀ id sheet, roster.get? id = some sheet → sheet.id = id
  /-- Its stamp has been given out. -/
  created_mem : ∀ id sheet, roster.get? id = some sheet →
    1 ≤ sheet.created ∧ sheet.created ≤ roster.lastStamp
  /-- No two sheets have the same stamp. -/
  created_inj : ∀ id other sheet sheet', roster.get? id = some sheet → roster.get? other = some sheet' →
    sheet.created = sheet'.created → id = other

theorem sound_empty : Sound {} where
  id_eq _ _ h := by cases h
  created_mem _ _ h := by cases h
  created_inj _ _ _ _ h _ _ := by cases h

/-! ## One change -/

/-- The sheet under an id has not lost its id or its stamp. -/
def Kept (roster : Roster) (id : String) (sheet' : Sheet) : Prop :=
  ∃ sheet, roster.get? id = some sheet ∧ sheet'.id = sheet.id ∧ sheet'.created = sheet.created

/-- The sheet under an id has come into being with the next stamp. -/
structure Came (roster later : Roster) (id : String) (sheet' : Sheet) : Prop where
  absent : roster.get? id = none
  id_eq : sheet'.id = id
  created_eq : sheet'.created = roster.lastStamp + 1
  lastStamp_le : roster.lastStamp + 1 ≤ later.lastStamp

/-- A roster becomes another by one change. -/
def Alters (roster later : Roster) : Prop :=
  roster.lastStamp ≤ later.lastStamp ∧
    ∃ new, ∀ id sheet', later.get? id = some sheet' →
      roster.Kept id sheet' ∨ id = new ∧ roster.Came later id sheet'

/-- Sheets that are edited keep their ids and their stamps. -/
theorem alters_of_map {roster later : Roster} {edit : String → Sheet → Sheet}
    (hstamp : roster.lastStamp ≤ later.lastStamp)
    (hget : ∀ id, later.get? id = (roster.get? id).map (edit id))
    (hedit : ∀ id sheet, (edit id sheet).id = sheet.id ∧ (edit id sheet).created = sheet.created) :
    Alters roster later := by
  refine ⟨hstamp, "", fun id sheet' h => .inl ?_⟩
  rw [hget] at h
  obtain ⟨sheet, hsheet, rfl⟩ := Option.map_eq_some_iff.1 h
  exact ⟨sheet, hsheet, hedit id sheet⟩

theorem Alters.refl (roster : Roster) : Alters roster roster :=
  ⟨Nat.le_refl _, "", fun _ sheet' h => .inl ⟨sheet', h, rfl, rfl⟩⟩

theorem alters_of_add {roster later : Roster} {sheet : Sheet} (h : roster.add sheet = .ok later) :
    Alters roster later := by
  obtain ⟨habsent, hstamp, hget⟩ := add_ok h
  refine ⟨by omega, sheet.id, fun id sheet' h' => ?_⟩
  rw [hget] at h'
  by_cases hid : sheet.id = id
  · rw [if_pos hid] at h'
    cases h'
    exact .inr ⟨hid.symm, hid ▸ habsent, hid, rfl, Nat.le_of_eq hstamp.symm⟩
  · rw [if_neg hid] at h'
    exact .inl ⟨sheet', h', rfl, rfl⟩

theorem alters_change (roster : Roster) (id : String) (edit : Sheet → Sheet)
    (hedit : ∀ sheet, (edit sheet).id = sheet.id ∧ (edit sheet).created = sheet.created) :
    Alters roster (roster.change id edit) := by
  refine ⟨Nat.le_succ _, id, fun other sheet' h => ?_⟩
  rw [get?_change] at h
  by_cases hother : id = other
  · subst hother
    rw [if_pos rfl] at h
    cases h
    cases hget : roster.get? id with
    | some sheet => exact .inl ⟨sheet, hget, hedit sheet⟩
    | none =>
      obtain ⟨hid, hcreated⟩ := hedit (.placeholder id (roster.lastStamp + 1))
      exact .inr ⟨rfl, hget, hid, hcreated, Nat.le_refl _⟩
  · rw [if_neg hother] at h
    exact .inl ⟨sheet', h, rfl, rfl⟩

theorem alters_write (roster : Roster) (update : SheetUpdate) : Alters roster (roster.write update) :=
  alters_change _ _ _ fun _ => ⟨rfl, rfl⟩

theorem alters_remove (roster : Roster) (id : String) : Alters roster (roster.remove id).1 := by
  refine ⟨Nat.le_refl _, "", fun other sheet' h => .inl ⟨sheet', ?_, rfl, rfl⟩⟩
  rw [get?_remove] at h
  by_cases hother : id = other
  · rw [if_pos hother] at h
    cases h
  · rwa [if_neg hother] at h

theorem alters_release (roster : Roster) (character : String) :
    Alters roster (roster.release character).1 := by
  refine alters_of_map (Nat.le_refl _) (get?_release roster character) fun _ sheet => ?_
  rw [Sheet.unbound]
  split <;> exact ⟨rfl, rfl⟩

theorem alters_of_bind {roster later : Roster} {character holder : String}
    (h : roster.bind character holder = .ok later) : Alters roster later := by
  obtain ⟨-, rfl⟩ := bind_ok h
  exact alters_change _ _ _ fun _ => ⟨rfl, rfl⟩

theorem alters_of_commit {roster later : Roster} {draft : SheetDraft}
    (h : (Operation.commit draft).result roster = .ok later) : Alters roster later := by
  obtain ⟨_, hcommit⟩ := Operation.exists_commit_eq h
  obtain ⟨hstamp, hget⟩ := commit_ok hcommit
  refine alters_of_map (Nat.le_of_eq hstamp.symm) hget fun id sheet => ?_
  rw [SheetDraft.writeTo]
  split <;> exact ⟨rfl, rfl⟩

/-! ## One operation -/

/-- Nothing is changed if an operation is refused. -/
theorem alters_getD {roster : Roster} {result : Except RosterError Roster}
    (h : ∀ later, result = .ok later → Alters roster later) :
    Alters roster (result.toOption.getD roster) := by
  cases result with
  | error why => exact .refl roster
  | ok later => exact h later rfl

/-- An operation is a batch of updates, or it is one change. -/
theorem Operation.alters_or (roster : Roster) (operation : Operation) :
    (∃ updates, operation = .writeAll updates) ∨ Alters roster (operation.after roster) := by
  rw [after_eq]
  cases operation with
  | writeAll updates => exact .inl ⟨updates, rfl⟩
  | add sheet => exact .inr (alters_getD fun _ => alters_of_add)
  | write update => exact .inr (alters_write roster update)
  | remove id => exact .inr (alters_remove roster id)
  | bind character holder => exact .inr (alters_getD fun _ => alters_of_bind)
  | release character => exact .inr (alters_release roster character)
  | commit draft => exact .inr (alters_getD fun _ => alters_of_commit)
  | ask question => exact .inr (.refl roster)

/-- What every change keeps is kept by an operation. -/
theorem Operation.after_of_alters {P : Roster → Prop}
    (halters : ∀ roster later, P roster → Alters roster later → P later) {roster : Roster} (h : P roster)
    (operation : Operation) : P (operation.after roster) := by
  rcases operation.alters_or roster with ⟨updates, rfl⟩ | ha
  · rw [after_eq]
    show P (roster.writeAll updates)
    -- the induction is on the updates, each of which is one change
    induction updates generalizing roster with
    | nil => exact h
    | cons update updates ih => exact ih (halters _ _ h (alters_write roster update))
  · exact halters _ _ h ha

/-- A change keeps a roster sound. -/
theorem Sound.alters {roster later : Roster} (h : roster.Sound) (ha : Alters roster later) :
    later.Sound := by
  obtain ⟨hstamp, new, hfate⟩ := ha
  refine ⟨fun id sheet' hget => ?_, fun id sheet' hget => ?_, ?_⟩
  · rcases hfate id sheet' hget with ⟨sheet, hsheet, hid, _⟩ | ⟨-, hcame⟩
    · rw [hid, h.id_eq id sheet hsheet]
    · exact hcame.id_eq
  · rcases hfate id sheet' hget with ⟨sheet, hsheet, _, hcreated⟩ | ⟨-, hcame⟩
    · have hmem := h.created_mem id sheet hsheet
      omega
    · have hcreated := hcame.created_eq
      have hle := hcame.lastStamp_le
      omega
  · intro id other sheet sheet' hget hget' hsame
    -- a stamp that was given out before the change differs from the next one
    rcases hfate id sheet hget with ⟨s, hs, _, hcreated⟩ | ⟨hid, hcame⟩ <;>
      rcases hfate other sheet' hget' with ⟨s', hs', _, hcreated'⟩ | ⟨hid', hcame'⟩
    · exact h.created_inj id other s s' hs hs' (by omega)
    · have hmem := h.created_mem id s hs
      have hnext := hcame'.created_eq
      omega
    · have hmem := h.created_mem other s' hs'
      have hnext := hcame.created_eq
      omega
    · rw [hid, hid']

/-- A change keeps the stamp of a sheet that stays. -/
theorem Alters.created_eq {roster later : Roster} (ha : Alters roster later) {id : String}
    {sheet sheet' : Sheet} (h : roster.get? id = some sheet) (h' : later.get? id = some sheet') :
    sheet'.created = sheet.created := by
  obtain ⟨-, new, hfate⟩ := ha
  rcases hfate id sheet' h' with ⟨s, hs, _, hcreated⟩ | ⟨-, hcame⟩
  · rw [h] at hs
    cases hs
    exact hcreated
  · rw [hcame.absent] at h
    cases h

/-- No sheet leaves the roster because of updates. -/
theorem exists_get?_write {roster : Roster} {id : String} {sheet : Sheet}
    (h : roster.get? id = some sheet) (update : SheetUpdate) :
    ∃ sheet', (roster.write update).get? id = some sheet' := by
  rw [write, get?_change]
  by_cases hid : update.id = id
  · exact ⟨_, if_pos hid⟩
  · exact ⟨sheet, (if_neg hid).trans h⟩

theorem created_writeAll {roster : Roster} {id : String} {sheet sheet' : Sheet}
    (updates : List SheetUpdate) (h : roster.get? id = some sheet)
    (h' : (roster.writeAll updates).get? id = some sheet') : sheet'.created = sheet.created := by
  induction updates generalizing roster sheet with
  | nil =>
    rw [writeAll, List.foldl_nil, h] at h'
    cases h'
    rfl
  | cons update updates ih =>
    obtain ⟨next, hnext⟩ := exists_get?_write h update
    rw [ih hnext h', (alters_write roster update).created_eq h hnext]

namespace Operation

theorem sound_after {roster : Roster} (h : roster.Sound) (operation : Operation) :
    (operation.after roster).Sound :=
  operation.after_of_alters (fun _ _ hsound ha => hsound.alters ha) h

theorem created_after {roster : Roster} {id : String} {sheet sheet' : Sheet} (operation : Operation)
    (h : roster.get? id = some sheet) (h' : (operation.after roster).get? id = some sheet') :
    sheet'.created = sheet.created := by
  rcases operation.alters_or roster with ⟨updates, rfl⟩ | ha
  · rw [after_eq] at h'
    exact created_writeAll updates h h'
  · exact ha.created_eq h h'

/-- An operation that is refused has changed nothing. -/
theorem eq_of_perform_error {operation : Operation} {roster left : Roster} {why : RosterError}
    (h : operation.perform roster = .error why left) : left = roster := by
  rw [perform_eq] at h
  cases hresult : operation.result roster with
  | ok later =>
    rw [hresult] at h
    cases h
  | error why =>
    rw [hresult] at h
    cases h
    rfl

end Operation

/-! ## Histories -/

/-- What every change keeps is kept by a history.  The induction is on the operations. -/
theorem after_of_alters {P : Roster → Prop}
    (halters : ∀ roster later, P roster → Alters roster later → P later) {roster : Roster} (h : P roster)
    (history : List Operation) : P (roster.after history) := by
  induction history generalizing roster with
  | nil => exact h
  | cons operation history ih => exact ih (operation.after_of_alters halters h)

theorem Sound.after {roster : Roster} (h : roster.Sound) (history : List Operation) :
    (roster.after history).Sound :=
  after_of_alters (fun _ _ hsound ha => hsound.alters ha) h history

/-- A sheet keeps its stamp while it stays, that is, while no operation leaves the roster without it. -/
theorem created_after_of_stays {roster : Roster} {id : String} {sheet sheet' : Sheet}
    (history : List Operation) (h : roster.get? id = some sheet)
    (hstays : ∀ part, part <+: history → ((roster.after part).get? id).isSome)
    (h' : (roster.after history).get? id = some sheet') : sheet'.created = sheet.created := by
  induction history generalizing roster sheet with
  | nil =>
    rw [after, List.foldl_nil, h] at h'
    cases h'
    rfl
  | cons operation history ih =>
    have hnext := hstays [operation] (List.prefix_append [operation] history)
    obtain ⟨next, hnext⟩ := Option.isSome_iff_exists.1 hnext
    have hlater : ∀ part, part <+: history →
        (((operation.after roster).after part).get? id).isSome := by
      intro part hpart
      exact hstays (operation :: part) (List.cons_prefix_cons.2 ⟨rfl, hpart⟩)
    rw [ih hnext hlater h', operation.created_after h hnext]

/-! ## Sheets that come into being -/

/-- The stamp has been given out, and the sheet that stands under the id, if there is one, has a later stamp. -/
structure Postdates (stamp : Nat) (id : String) (roster : Roster) : Prop where
  given : stamp ≤ roster.lastStamp
  later : ∀ sheet, roster.get? id = some sheet → stamp < sheet.created

theorem Postdates.alters {stamp : Nat} {id : String} {roster later : Roster}
    (h : Postdates stamp id roster) (ha : Alters roster later) : Postdates stamp id later := by
  obtain ⟨hstamp, new, hfate⟩ := ha
  refine ⟨Nat.le_trans h.given hstamp, fun sheet' hget => ?_⟩
  rcases hfate id sheet' hget with ⟨sheet, hsheet, -, hcreated⟩ | ⟨-, hcame⟩
  · rw [hcreated]
    exact h.later sheet hsheet
  · rw [hcame.created_eq]
    exact Nat.lt_succ_of_le h.given

/-- No stamp is given out twice: a sheet that comes into being later has a later stamp than all that were given
out before, also under an id that had a sheet before. -/
theorem lt_created_of_absent {roster : Roster} {id : String} {sheet : Sheet} (history : List Operation)
    (habsent : roster.get? id = none) (h : (roster.after history).get? id = some sheet) :
    roster.lastStamp < sheet.created := by
  have hnone : Postdates roster.lastStamp id roster := ⟨Nat.le_refl _, fun sheet hget => by
    rw [habsent] at hget
    cases hget⟩
  have hpostdates := after_of_alters (fun _ _ hp ha => hp.alters ha) hnone history
  exact hpostdates.later sheet h

end Tabletop.Roster
