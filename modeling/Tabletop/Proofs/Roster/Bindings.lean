import Tabletop.Proofs.Roster.Operation

/-!
# Bindings

Who is bound to whom is a partial map from holders to characters, `Bindings`.  It is said here without
sheets what each operation makes of that map, and a history of operations is followed on the roster and on
the map side by side.  The map knows of the roster only which operations are refused.

`Roster.Follows` is the simulation: the character of every holder is the entry of the map.  Every operation
keeps it, so it holds after every history.
-/

namespace Tabletop

/-- A partial map from holders to characters. -/
def Bindings := String → Option String

namespace Bindings

/-- The entry that an id makes.  The empty id makes none. -/
def entry (character : String) : Option String :=
  if character = "" then none else some character

/-- Gives one holder another entry. -/
def set (bindings : Bindings) (holder character : String) : Bindings :=
  fun other => if holder = other then entry character else bindings other

/-- Removes the entries that are a character. -/
def release (bindings : Bindings) (character : String) : Bindings :=
  fun holder => (bindings holder).filter (· != character)

/-- What an operation makes of the bindings if it is not refused. -/
def next (bindings : Bindings) : Roster.Operation → Bindings
  | .add sheet => bindings.set sheet.id sheet.binding
  | .bind character holder => bindings.set holder character
  | .release character => bindings.release character
  | .remove id => bindings.set id ""
  | .write _ => bindings
  | .writeAll _ => bindings
  | .commit _ => bindings
  | .ask _ => bindings

/-- What an operation makes of the bindings when a roster is asked for it. -/
def step (roster : Roster) (bindings : Bindings) (operation : Roster.Operation) : Bindings :=
  match operation.perform roster with
  | .ok _ _ => bindings.next operation
  | .error _ _ => bindings

/-- The bindings after a history of operations that a roster is asked for. -/
def after (roster : Roster) (bindings : Bindings) : List Roster.Operation → Bindings
  | [] => bindings
  | operation :: history =>
    after (operation.after roster) (bindings.step roster operation) history

/-- The empty id is no entry, whether it is removed or not. -/
theorem filter_entry (binding character : String) :
    (entry binding).filter (· != character) = if binding = character then none else entry binding := by
  rw [entry]
  by_cases hempty : binding = ""
  · rw [if_pos hempty]
    exact (ite_self none).symm
  · rw [if_neg hempty, Option.filter_some]
    by_cases hsame : binding = character <;> simp [hsame]

end Bindings

namespace Roster

/-- The character of every holder is its entry. -/
def Follows (roster : Roster) (bindings : Bindings) : Prop :=
  ∀ holder, roster.characterOf holder = bindings holder

/-! ## The character of a holder -/

theorem characterOf_eq (roster : Roster) (holder : String) :
    roster.characterOf holder = (roster.get? holder).bind fun sheet => Bindings.entry sheet.binding := by
  rw [characterOf, get?]
  cases roster.sheets[holder]? with
  | none => rfl
  | some sheet =>
    show ((some sheet).filter Sheet.isBound).map (·.binding) = Bindings.entry sheet.binding
    rw [Option.filter_some, Sheet.isBound, Bindings.entry]
    by_cases hempty : sheet.binding = "" <;> simp [hempty]

/-- Sheets that are edited apart from their bindings leave every holder its character. -/
theorem characterOf_of_map {roster later : Roster} {edit : String → Sheet → Sheet}
    (hget : ∀ id, later.get? id = (roster.get? id).map (edit id))
    (hedit : ∀ id sheet, (edit id sheet).binding = sheet.binding) (holder : String) :
    later.characterOf holder = roster.characterOf holder := by
  rw [characterOf_eq, characterOf_eq, hget]
  cases roster.get? holder with
  | none => rfl
  | some sheet => exact congrArg Bindings.entry (hedit holder sheet)

theorem characterOf_of_add {roster later : Roster} {sheet : Sheet} (h : roster.add sheet = .ok later)
    (holder : String) :
    later.characterOf holder =
      if sheet.id = holder then Bindings.entry sheet.binding else roster.characterOf holder := by
  obtain ⟨-, -, hget⟩ := add_ok h
  rw [characterOf_eq, characterOf_eq, hget]
  split <;> rfl

theorem characterOf_write (roster : Roster) (update : SheetUpdate) (holder : String) :
    (roster.write update).characterOf holder = roster.characterOf holder := by
  rw [characterOf_eq, characterOf_eq, write, get?_change]
  by_cases hid : update.id = holder
  · subst hid
    rw [if_pos rfl]
    -- a sheet that comes into being by an update is unbound
    cases roster.get? update.id <;> rfl
  · rw [if_neg hid]

theorem characterOf_writeAll (roster : Roster) (updates : List SheetUpdate) (holder : String) :
    (roster.writeAll updates).characterOf holder = roster.characterOf holder := by
  induction updates generalizing roster with
  | nil => rfl
  | cons update updates ih => rw [← characterOf_write roster update]; exact ih _

theorem characterOf_of_bind {roster later : Roster} {character holder : String}
    (h : roster.bind character holder = .ok later) (other : String) :
    later.characterOf other =
      if holder = other then Bindings.entry character else roster.characterOf other := by
  obtain ⟨-, rfl⟩ := bind_ok h
  rw [characterOf_eq, characterOf_eq, get?_change]
  split <;> rfl

theorem characterOf_remove (roster : Roster) (id holder : String) :
    (roster.remove id).1.characterOf holder =
      if id = holder then none else roster.characterOf holder := by
  rw [characterOf_eq, characterOf_eq, get?_remove]
  split <;> rfl

theorem characterOf_release (roster : Roster) (character holder : String) :
    (roster.release character).1.characterOf holder =
      (roster.characterOf holder).filter (· != character) := by
  rw [characterOf_eq, characterOf_eq, get?_release]
  cases roster.get? holder with
  | none => rfl
  | some sheet =>
    show Bindings.entry (sheet.unbound character).binding = (Bindings.entry sheet.binding).filter _
    rw [Bindings.filter_entry, Sheet.unbound]
    by_cases hbound : sheet.binding = character
    · rw [if_pos (beq_iff_eq.2 hbound), if_pos hbound]
      rfl
    · rw [if_neg (mt beq_iff_eq.1 hbound), if_neg hbound]

theorem characterOf_of_commit {roster later : Roster} {draft : SheetDraft} {count : Nat}
    (h : roster.commit draft = .ok (later, count)) (holder : String) :
    later.characterOf holder = roster.characterOf holder := by
  refine characterOf_of_map (commit_ok h).2 (fun id sheet => ?_) holder
  rw [SheetDraft.writeTo]
  split <;> rfl

/-! ## The simulation -/

theorem follows_empty : Follows {} fun _ => none :=
  fun _ => rfl

/-- An operation that is not refused does to the characters of the holders what it does to the map. -/
theorem Follows.next {roster later : Roster} {bindings : Bindings} {operation : Operation}
    (h : roster.Follows bindings) (hresult : operation.result roster = .ok later) :
    later.Follows (bindings.next operation) := by
  intro holder
  cases operation with
  | add sheet =>
    rw [characterOf_of_add hresult, h holder]
    rfl
  | write update =>
    cases hresult
    rw [characterOf_write, h holder]
    rfl
  | writeAll updates =>
    cases hresult
    rw [characterOf_writeAll, h holder]
    rfl
  | remove id =>
    cases hresult
    rw [characterOf_remove, h holder]
    rfl
  | bind character other =>
    rw [characterOf_of_bind hresult, h holder]
    rfl
  | release character =>
    cases hresult
    rw [characterOf_release, h holder]
    rfl
  | commit draft =>
    obtain ⟨_, hcommit⟩ := Operation.exists_commit_eq hresult
    rw [characterOf_of_commit hcommit, h holder]
    rfl
  | ask question =>
    cases hresult
    exact h holder

/-- Every operation keeps the simulation, whether it is refused or not. -/
theorem Follows.step {roster : Roster} {bindings : Bindings} (h : roster.Follows bindings)
    (operation : Operation) :
    (operation.after roster).Follows (bindings.step roster operation) := by
  rw [Operation.after, Bindings.step, Operation.perform_eq]
  cases hresult : operation.result roster with
  | error why => exact h
  | ok later => exact h.next hresult

/-- The induction is on the operations. -/
theorem Follows.after {roster : Roster} {bindings : Bindings} (h : roster.Follows bindings)
    (history : List Operation) : (roster.after history).Follows (bindings.after roster history) := by
  induction history generalizing roster bindings with
  | nil => exact h
  | cons operation history ih => exact ih (h.step operation)

/-- A draft is of the sheet that the entry names, if there is such a sheet. -/
theorem Follows.target_draft {roster : Roster} {bindings : Bindings} (h : roster.Follows bindings)
    (id : String) :
    (roster.draft id).target =
      match bindings id with
      | some character => if (roster.get? character).isSome then character else id
      | none => id := by
  show roster.target id = _
  rw [target, h id]
  cases bindings id with
  | none => rfl
  | some character =>
    show (if roster.sheets.contains character then character else id) = _
    rw [contains_eq_isSome_get?]

/-- Whatever has been done with a roster that was empty, its bindings are the map that is made by what was
done: a holder is bound to a character if and only if this is its entry, and what is evaluated for an id is
evaluated on the sheet of its entry, if there is one, and on its own sheet if not. -/
theorem after_follows_bindings (history : List Operation) :
    let roster := ({} : Roster).after history
    let bindings := Bindings.after {} (fun _ => none) history
    (∀ holder character,
      roster.characterOf holder = some character ↔ bindings holder = some character) ∧
    ∀ id, (roster.draft id).target =
      match bindings id with
      | some character => if (roster.get? character).isSome then character else id
      | none => id := by
  intro roster bindings
  have hfollows : roster.Follows bindings := follows_empty.after history
  refine ⟨fun holder character => ?_, hfollows.target_draft⟩
  rw [hfollows holder]

end Roster
end Tabletop
