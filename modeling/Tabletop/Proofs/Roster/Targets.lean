import Mathlib.Data.List.Basic
import Tabletop.Proofs.Roster.Bindings

/-!
# Targets

A holder is evaluated against itself or against what it is bound to.  A binding is made to a character only,
and it names the character by its id.  Nobody asks for the kind again: if the sheet with the id is removed
and another one comes into being under the id, the binding leads to that one, of whatever kind it is.

What an operation does to the kinds of the sheets is one equation, `kindAt_of_result`: the sheet that is
removed has no kind any more, every other sheet keeps its kind, and a sheet that comes into being has the
kind that the operation gives it, `Operation.made?`.
-/

namespace Tabletop

/-- An entry that is found was there, or is the one that is set, which then is not the empty id. -/
theorem Bindings.of_set_eq_some {bindings : Bindings} {holder character other found : String}
    (h : bindings.set holder character other = some found) :
    bindings other = some found ∨ holder = other ∧ character = found ∧ found ≠ "" := by
  rw [Bindings.set] at h
  split at h
  · rename_i hholder
    rw [Bindings.entry] at h
    split at h
    · cases h
    · rename_i hne
      cases h
      exact .inr ⟨hholder, rfl, hne⟩
  · exact .inl h

namespace Roster

/-! ## Kinds -/

/-- The kind of the sheet with an id, if there is such a sheet. -/
def kindAt (roster : Roster) (id : String) : Option (Option SheetKind) :=
  (roster.get? id).map Sheet.kind

namespace Operation

/-- The kind of the sheet that an operation brings into being under an id that has none.  Only a sheet that
is added has a kind. -/
def made? : Operation → String → Option (Option SheetKind)
  | add sheet, id => if sheet.id = id then some sheet.kind else none
  | write update, id => if update.id = id then some none else none
  | writeAll updates, id => if id ∈ updates.map SheetUpdate.id then some none else none
  | bind _ holder, id => if holder = id then some none else none
  | remove _, _ => none
  | release _, _ => none
  | commit _, _ => none
  | ask _, _ => none

/-- A sheet that is added is bound to nothing. -/
def AddsUnbound : Operation → Prop
  | add sheet => sheet.binding = ""
  | _ => True

end Operation

theorem kindAt_of_add {roster later : Roster} {sheet : Sheet} (h : roster.add sheet = .ok later)
    (id : String) :
    later.kindAt id = (roster.kindAt id).or ((Operation.add sheet).made? id) := by
  obtain ⟨habsent, -, hget⟩ := add_ok h
  rw [kindAt, kindAt, hget, Operation.made?]
  by_cases hid : sheet.id = id
  · subst hid
    rw [if_pos rfl, if_pos rfl, habsent]
    rfl
  · rw [if_neg hid, if_neg hid, Option.or_none]

/-- A sheet that comes into being by a change has no kind. -/
theorem kindAt_change (roster : Roster) (id other : String) {edit : Sheet → Sheet}
    (hedit : ∀ sheet, (edit sheet).kind = sheet.kind) :
    (roster.change id edit).kindAt other =
      (roster.kindAt other).or (if id = other then some none else none) := by
  rw [kindAt, kindAt, get?_change]
  by_cases hid : id = other
  · subst hid
    rw [if_pos rfl, if_pos rfl, Option.map_some, hedit]
    cases roster.get? id <;> rfl
  · rw [if_neg hid, if_neg hid, Option.or_none]

theorem kindAt_write (roster : Roster) (update : SheetUpdate) (id : String) :
    (roster.write update).kindAt id =
      (roster.kindAt id).or ((Operation.write update).made? id) :=
  kindAt_change roster update.id id fun _ => rfl

/-- The induction is on the updates. -/
theorem kindAt_writeAll (roster : Roster) (updates : List SheetUpdate) (id : String) :
    (roster.writeAll updates).kindAt id =
      (roster.kindAt id).or ((Operation.writeAll updates).made? id) := by
  induction updates generalizing roster with
  | nil => exact Option.or_none.symm
  | cons update updates ih =>
    rw [show roster.writeAll (update :: updates) = (roster.write update).writeAll updates from rfl, ih,
      kindAt_write, Option.or_assoc]
    congr 1
    simp only [Operation.made?, List.map_cons, List.mem_cons, eq_comm (a := id)]
    by_cases hid : update.id = id <;> simp [hid]

theorem kindAt_of_bind {roster later : Roster} {character holder : String}
    (h : roster.bind character holder = .ok later) (id : String) :
    later.kindAt id = (roster.kindAt id).or ((Operation.bind character holder).made? id) := by
  obtain ⟨-, rfl⟩ := bind_ok h
  exact kindAt_change roster holder id fun _ => rfl

theorem kindAt_remove (roster : Roster) (id other : String) :
    (roster.remove id).1.kindAt other = if id = other then none else roster.kindAt other := by
  rw [kindAt, get?_remove, kindAt]
  split <;> rfl

/-- Sheets that are edited apart from their kinds keep them. -/
theorem kindAt_of_map {roster later : Roster} {edit : String → Sheet → Sheet}
    (hget : ∀ id, later.get? id = (roster.get? id).map (edit id))
    (hedit : ∀ id sheet, (edit id sheet).kind = sheet.kind) (id : String) :
    later.kindAt id = roster.kindAt id := by
  rw [kindAt, kindAt, hget, Option.map_map]
  exact congrArg (Option.map · (roster.get? id)) (funext (hedit id))

theorem kindAt_release (roster : Roster) (character id : String) :
    (roster.release character).1.kindAt id = roster.kindAt id := by
  refine kindAt_of_map (get?_release roster character) (fun _ sheet => ?_) id
  rw [Sheet.unbound]
  split <;> rfl

theorem kindAt_of_commit {roster later : Roster} {draft : SheetDraft} {count : Nat}
    (h : roster.commit draft = .ok (later, count)) (id : String) :
    later.kindAt id = roster.kindAt id := by
  refine kindAt_of_map (commit_ok h).2 (fun id sheet => ?_) id
  rw [SheetDraft.writeTo]
  split <;> rfl

/-- An operation that is not refused removes the sheet with an id, or lets it keep its kind and brings it into
being if it was not there. -/
theorem kindAt_of_result {roster later : Roster} {operation : Operation}
    (h : operation.result roster = .ok later) (id : String) :
    operation = .remove id ∧ later.kindAt id = none ∨
      later.kindAt id = (roster.kindAt id).or (operation.made? id) := by
  cases operation with
  | add sheet => exact .inr (kindAt_of_add h id)
  | write update =>
    cases h
    exact .inr (kindAt_write roster update id)
  | writeAll updates =>
    cases h
    exact .inr (kindAt_writeAll roster updates id)
  | remove removed =>
    cases h
    rw [kindAt_remove]
    by_cases hid : removed = id
    · exact .inl ⟨hid ▸ rfl, if_pos hid⟩
    · exact .inr ((if_neg hid).trans Option.or_none.symm)
  | bind character holder => exact .inr (kindAt_of_bind h id)
  | release character =>
    cases h
    exact .inr ((kindAt_release roster character id).trans Option.or_none.symm)
  | commit draft =>
    obtain ⟨_, hcommit⟩ := Operation.exists_commit_eq h
    exact .inr ((kindAt_of_commit hcommit id).trans Option.or_none.symm)
  | ask question =>
    cases h
    exact .inr Option.or_none.symm

/-! ## The life of a kind -/

section

variable {roster : Roster} {id : String} {kind : Option SheetKind}

/-- A sheet keeps its kind until it is removed. -/
theorem kindAt_after_of_kindAt (operation : Operation) (h : roster.kindAt id = some kind) :
    (operation.after roster).kindAt id = some kind ∨
      operation = .remove id ∧ (operation.after roster).kindAt id = none := by
  rw [Operation.after_eq]
  cases hresult : operation.result roster with
  | error why => exact .inl h
  | ok later =>
    rcases kindAt_of_result hresult id with hremoved | hkept
    · exact .inr hremoved
    · rw [h] at hkept
      exact .inl hkept

/-- A kind that is there has been there, or is made. -/
theorem kindAt_or_made?_of_after {operation : Operation}
    (h : (operation.after roster).kindAt id = some kind) :
    roster.kindAt id = some kind ∨ operation.made? id = some kind := by
  rw [Operation.after_eq] at h
  cases hresult : operation.result roster with
  | error why =>
    rw [hresult] at h
    exact .inl h
  | ok later =>
    rw [hresult] at h
    rcases kindAt_of_result hresult id with ⟨-, hremoved⟩ | hkept
    · cases hremoved.symm.trans h
    · rcases Option.or_eq_some_iff.1 (hkept.symm.trans h) with hthere | ⟨-, hmade⟩
      · exact .inl hthere
      · exact .inr hmade

end

/-- One of the operations of a history makes a sheet of a kind. -/
def Makes (history : List Operation) (id : String) (kind : Option SheetKind) : Prop :=
  ∃ before operation later, history = before ++ operation :: later ∧ operation.made? id = some kind

/-- A history removes a sheet and makes another one with its id. -/
def Remakes (history : List Operation) (id : String) (kind : Option SheetKind) : Prop :=
  ∃ before later, history = before ++ .remove id :: later ∧ Makes later id kind

/-- The induction is on the operations. -/
theorem kindAt_or_makes_of_after {roster : Roster} {history : List Operation} {id : String}
    {kind : Option SheetKind} (h : (roster.after history).kindAt id = some kind) :
    roster.kindAt id = some kind ∨ Makes history id kind := by
  induction history generalizing roster with
  | nil => exact .inl h
  | cons operation history ih =>
    change ((operation.after roster).after history).kindAt id = some kind at h
    rcases ih h with hthere | ⟨before, maker, later, rfl, hmade⟩
    · refine (kindAt_or_made?_of_after hthere).imp_right fun hmade => ?_
      exact ⟨[], operation, history, rfl, hmade⟩
    · exact .inr ⟨operation :: before, maker, later, rfl, hmade⟩

/-- A sheet that is there after a history still has the kind that it had, or it is another sheet.  The
induction is on the operations. -/
theorem kindAt_eq_or_remakes {roster : Roster} {history : List Operation} {id : String}
    {kind kind' : Option SheetKind} (h : roster.kindAt id = some kind)
    (h' : (roster.after history).kindAt id = some kind') :
    kind' = kind ∨ Remakes history id kind' := by
  induction history generalizing roster with
  | nil => exact .inl (Option.some.inj (h'.symm.trans h))
  | cons operation history ih =>
    change ((operation.after roster).after history).kindAt id = some kind' at h'
    rcases kindAt_after_of_kindAt operation h with hkept | ⟨rfl, hremoved⟩
    · refine (ih hkept h').imp_right ?_
      rintro ⟨before, later, rfl, hmakes⟩
      exact ⟨operation :: before, later, rfl, hmakes⟩
    · rcases kindAt_or_makes_of_after h' with hthere | hmakes
      · cases hremoved.symm.trans hthere
      · exact .inr ⟨[], history, rfl, hmakes⟩

/-! ## The life of a binding -/

/-- Only an operation that binds makes a binding, if no sheet is added with one. -/
theorem characterOf_or_bind_of_after {roster : Roster} {operation : Operation} {holder character : String}
    (hadds : operation.AddsUnbound)
    (h : (operation.after roster).characterOf holder = some character) :
    roster.characterOf holder = some character ∨
      operation = .bind character holder ∧
        roster.kindAt character = some (some .character) := by
  rw [Operation.after_eq] at h
  cases hresult : operation.result roster with
  | error why =>
    rw [hresult] at h
    exact .inl h
  | ok later =>
    rw [hresult] at h
    have hself : roster.Follows roster.characterOf := fun _ => rfl
    have hnext := (hself.next hresult holder).symm.trans h
    cases operation with
    | add sheet =>
      rcases Bindings.of_set_eq_some hnext with hthere | ⟨-, hbinding, hne⟩
      · exact .inl hthere
      · exact absurd (hbinding.symm.trans hadds) hne
    | remove id =>
      rcases Bindings.of_set_eq_some hnext with hthere | ⟨-, hempty, hne⟩
      · exact .inl hthere
      · exact absurd hempty.symm hne
    | bind bound other =>
      rcases Bindings.of_set_eq_some hnext with hthere | ⟨rfl, rfl, -⟩
      · exact .inl hthere
      · obtain ⟨⟨sheet, hget, hkind⟩, -⟩ := bind_ok hresult
        refine .inr ⟨rfl, ?_⟩
        rw [kindAt, hget, Option.map_some, hkind]
    | release released => exact .inl (Option.eq_some_of_filter_eq_some hnext)
    | write update => exact .inl hnext
    | writeAll updates => exact .inl hnext
    | commit draft => exact .inl hnext
    | ask question => exact .inl hnext

/-- A binding that is there after a history was there before it, or it was made in the history, and to a
character.  The induction is on the operations. -/
theorem characterOf_or_bind_of_history {roster : Roster} {history : List Operation}
    {holder character : String} (hadds : ∀ operation ∈ history, operation.AddsUnbound)
    (h : (roster.after history).characterOf holder = some character) :
    roster.characterOf holder = some character ∨
      ∃ before later, history = before ++ .bind character holder :: later ∧
        (roster.after before).kindAt character = some (some .character) := by
  induction history generalizing roster with
  | nil => exact .inl h
  | cons operation history ih =>
    change ((operation.after roster).after history).characterOf holder = some character at h
    obtain ⟨hfirst, hrest⟩ := List.forall_mem_cons.1 hadds
    rcases ih hrest h with hthere | ⟨before, later, rfl, hcharacter⟩
    · refine (characterOf_or_bind_of_after hfirst hthere).imp_right ?_
      rintro ⟨rfl, hcharacter⟩
      exact ⟨[], history, rfl, hcharacter⟩
    · exact .inr ⟨operation :: before, later, rfl, hcharacter⟩

/-! ## Any history -/

/-- What is used for an id is the sheet with the id, or a sheet that is there and is bound to. -/
theorem target_draft_or (roster : Roster) (id : String) :
    (roster.draft id).target = id ∨
      roster.characterOf id = some (roster.draft id).target ∧
        ∃ kind, roster.kindAt (roster.draft id).target = some kind := by
  have hself : roster.Follows roster.characterOf := fun _ => rfl
  rw [hself.target_draft id]
  cases hbound : roster.characterOf id with
  | none => exact .inl rfl
  | some character =>
    dsimp only
    split
    · rename_i hthere
      obtain ⟨sheet, hsheet⟩ := Option.isSome_iff_exists.1 hthere
      exact .inr ⟨rfl, sheet.kind, congrArg (Option.map Sheet.kind) hsheet⟩
    · exact .inl rfl

/-- Whatever has been done with a roster that was empty, if no sheet was added with a binding: a holder is
evaluated against itself, or against a sheet that is there and to which it was bound when this was a
character.  That sheet is a character still, unless the character was removed later and another sheet came
into being with its id. -/
theorem after_target_character (history : List Operation)
    (hadds : ∀ operation ∈ history, operation.AddsUnbound) (id : String) :
    let roster := ({} : Roster).after history
    let used := (roster.draft id).target
    used = id ∨
      ∃ kind before later, roster.kindAt used = some kind ∧
        history = before ++ .bind used id :: later ∧
        (({} : Roster).after before).kindAt used = some (some .character) ∧
        (kind = some .character ∨ Remakes later used kind) := by
  intro roster used
  rcases target_draft_or roster id with hself | ⟨hbound, kind, hkind⟩
  · exact .inl hself
  rcases characterOf_or_bind_of_history hadds hbound with hnone | ⟨before, later, hhistory, hcharacter⟩
  · cases hnone
  refine .inr ⟨kind, before, later, hkind, hhistory, hcharacter, ?_⟩
  have hlater : roster = ((Operation.bind used id).after (({} : Roster).after before)).after later := by
    show ({} : Roster).after history = _
    rw [hhistory]
    exact List.foldl_append
  -- binding keeps the kind of the character
  rcases kindAt_after_of_kindAt (.bind used id) hcharacter with hbind | ⟨hremove, -⟩
  · exact kindAt_eq_or_remakes hbind (hlater ▸ hkind)
  · cases hremove

/-- A character is bound to and removed, and an update makes another sheet with its id. -/
def idReuse : List Operation :=
  [.add (.character "c" "o" "n"), .bind "c" "h", .remove "c", .write { id := "c" }]

theorem addsUnbound_idReuse : ∀ operation ∈ idReuse, operation.AddsUnbound := by
  simp [idReuse, Operation.AddsUnbound, Sheet.character]

theorem target_idReuse : ((({} : Roster).after idReuse).draft "h").target = "c" := by
  decide +kernel

theorem kindAt_idReuse : (({} : Roster).after idReuse).kindAt "c" = some none := by
  decide +kernel

/-- The sheet that a holder is evaluated against has taken the id of its character. -/
theorem after_target_character_idReuse :
    (∀ operation ∈ idReuse, operation.AddsUnbound) ∧
      ∃ before later, idReuse = before ++ .bind "c" "h" :: later ∧
        (({} : Roster).after before).kindAt "c" = some (some .character) ∧
        Remakes later "c" none := by
  refine ⟨addsUnbound_idReuse, ?_⟩
  have htarget := after_target_character idReuse addsUnbound_idReuse "h"
  simp only [target_idReuse, kindAt_idReuse] at htarget
  rcases htarget with hself | ⟨kind, before, later, hkind, hhistory, hcharacter, hremade⟩
  · exact absurd hself (by decide)
  · cases hkind
    exact ⟨before, later, hhistory, hcharacter, hremade.resolve_left nofun⟩

/-- A holder may be evaluated against a sheet of no kind. -/
theorem exists_target_not_character :
    ¬∀ history : List Operation, (∀ operation ∈ history, operation.AddsUnbound) → ∀ id : String,
      let roster := ({} : Roster).after history
      (roster.draft id).target = id ∨
        roster.kindAt (roster.draft id).target = some (some .character) := by
  intro hall
  have hreuse := hall idReuse addsUnbound_idReuse "h"
  simp only [target_idReuse, kindAt_idReuse] at hreuse
  exact absurd hreuse (by decide)

end Roster
end Tabletop
