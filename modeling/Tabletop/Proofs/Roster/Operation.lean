import Tabletop.Sheet.Roster

/-!
# Operations on a roster

A roster is shared, and what it is asked to do is done one operation after the other.  Here each operation
is said in place, with what it looks up, when it takes a stamp and where it puts a sheet, so that one that
is refused might leave something behind.  `Operation.perform_eq` says that none does: an operation makes of
a roster what the function on rosters makes of it, or it is refused and the roster is what it was.

Later proofs know an operation by the sheet that is found under an id after it (`get?_change`,
`get?_release` and the others), and a history of operations by its steps.
-/

namespace Tabletop.Roster

/-! ## In place -/

/-- A computation that changes a roster and may be refused.  What it has changed by then stays changed. -/
abbrev Action := EStateM RosterError Roster

namespace Action

/-- Takes the next stamp. -/
def takeStamp : Action Nat :=
  modifyGet fun roster =>
    (roster.lastStamp + 1, { roster with lastStamp := roster.lastStamp + 1 })

/-- Finds the sheet with an id. -/
def find (id : String) : Action (Option Sheet) :=
  return (← get).sheets[id]?

/-- Puts a sheet under an id. -/
def put (id : String) (sheet : Sheet) : Action Unit :=
  modify fun roster => { roster with sheets := roster.sheets.insert id sheet }

/-- Adds a sheet under its id, unless the id is taken. -/
def add (sheet : Sheet) : Action Unit := do
  match ← find sheet.id with
  | some _ => throw (.alreadyExists sheet.id)
  | none =>
    let stamp ← takeStamp
    put sheet.id { sheet with created := stamp }

/-- Changes the sheet with an id, or one that comes into being.  The stamp is taken before the sheet is
looked for. -/
def change (id : String) (edit : Sheet → Sheet) : Action Unit := do
  let stamp ← takeStamp
  match ← find id with
  | some sheet => put id (edit sheet)
  | none => put id (edit (.placeholder id stamp))

/-- Replaces the attributes, the name and the type of a sheet. -/
def write (update : SheetUpdate) : Action Unit :=
  change update.id fun sheet =>
    { sheet with
      attributes := update.attributes, name := update.name, sheetType := update.sheetType }

/-- Takes a sheet out, and says whether there was one. -/
def remove (id : String) : Action Bool :=
  modifyGet fun roster => ((roster.remove id).2, (roster.remove id).1)

/-- Binds a holder to a character, which has to be there. -/
def bind (character holder : String) : Action Unit := do
  match ← find character with
  | none => throw (.notFound character)
  | some sheet =>
    if sheet.kind = some .character then
      change holder fun sheet => { sheet with binding := character }
    else throw (.notACharacter character)

/-- Unbinds the holders of a character, and counts them. -/
def release (character : String) : Action Nat :=
  modifyGet fun roster => ((roster.release character).2, (roster.release character).1)

/-- Writes what was assigned in a draft to its sheet, and counts it. -/
def commit (draft : SheetDraft) : Action Nat := do
  if draft.assigned.isEmpty then return 0
  else
    match ← find draft.target with
    | none => throw (.notFound draft.target)
    | some sheet =>
      put draft.target { sheet with attributes := draft.applyTo sheet.attributes }
      return draft.assigned.length

end Action

/-- What a roster can be asked to do.  A `question` is any function of the roster; the sheet with an id, the
lists, the character of a holder and the draft for an id are such. -/
inductive Operation where
  | add (sheet : Sheet)
  | write (update : SheetUpdate)
  | writeAll (updates : List SheetUpdate)
  | remove (id : String)
  | bind (character holder : String)
  | release (character : String)
  | commit (draft : SheetDraft)
  | ask {α : Type} (question : Roster → α)

namespace Operation

/-- Carries out an operation. -/
def perform : Operation → Action Unit
  | add sheet => Action.add sheet
  | write update => Action.write update
  | writeAll updates => updates.forM Action.write
  | remove id => discard (Action.remove id)
  | bind character holder => Action.bind character holder
  | release character => discard (Action.release character)
  | commit draft => discard (Action.commit draft)
  | ask question => discard (question <$> get)

/-- What the functions on rosters make of an operation. -/
def result (roster : Roster) : Operation → Except RosterError Roster
  | add sheet => roster.add sheet
  | write update => .ok (roster.write update)
  | writeAll updates => .ok (roster.writeAll updates)
  | remove id => .ok (roster.remove id).1
  | bind character holder => roster.bind character holder
  | release character => .ok (roster.release character).1
  | commit draft => (roster.commit draft).map Prod.fst
  | ask _ => .ok roster

end Operation

/-! ## At once or not at all -/

/-- The result of a computation that changes a roster at once, or is refused and changes nothing. -/
def atOnce (roster : Roster) : Except RosterError Roster → EStateM.Result RosterError Roster Unit
  | .ok later => .ok () later
  | .error why => .error why roster

namespace Action

theorem then_apply {α β : Type} (action : Action α) (next : α → Action β) (roster : Roster) :
    (action >>= next) roster =
      match action roster with
      | .ok a later => next a later
      | .error why later => .error why later := by
  show EStateM.bind action next roster = _
  rw [EStateM.bind]
  cases action roster <;> rfl

theorem add_apply (sheet : Sheet) (roster : Roster) :
    add sheet roster = roster.atOnce (roster.add sheet) := by
  show (match roster.sheets[sheet.id]? with
    | some _ => throw (RosterError.alreadyExists sheet.id)
    | none => (do
      let stamp ← takeStamp
      put sheet.id { sheet with created := stamp } : Action Unit)) roster = _
  rw [Roster.add, Std.ExtTreeMap.contains_eq_isSome_getElem?]
  cases roster.sheets[sheet.id]? <;> rfl

theorem change_apply (id : String) (edit : Sheet → Sheet) (roster : Roster) :
    change id edit roster = .ok () (roster.change id edit) := by
  show (match roster.sheets[id]? with
    | some sheet => put id (edit sheet)
    | none => put id (edit (.placeholder id (roster.lastStamp + 1))) : Action Unit)
      { roster with lastStamp := roster.lastStamp + 1 } = _
  rw [Roster.change]
  cases roster.sheets[id]? <;> rfl

theorem bind_apply (character holder : String) (roster : Roster) :
    bind character holder roster = roster.atOnce (roster.bind character holder) := by
  show (match roster.sheets[character]? with
    | none => throw (RosterError.notFound character)
    | some sheet =>
      if sheet.kind = some .character then
        change holder fun sheet => { sheet with binding := character }
      else throw (RosterError.notACharacter character) : Action Unit) roster = _
  rw [Roster.bind]
  cases roster.sheets[character]? with
  | none => rfl
  | some sheet =>
    by_cases hkind : sheet.kind = some .character
    · simp only [if_pos hkind]
      exact change_apply _ _ _
    · simp only [if_neg hkind]
      rfl

theorem commit_apply (draft : SheetDraft) (roster : Roster) :
    commit draft roster =
      match roster.commit draft with
      | .ok (later, count) => .ok count later
      | .error why => .error why roster := by
  rw [commit, Roster.commit]
  split
  · rfl
  · show (match roster.sheets[draft.target]? with
      | none => throw (RosterError.notFound draft.target)
      | some sheet => (do
        put draft.target { sheet with attributes := draft.applyTo sheet.attributes }
        return draft.assigned.length : Action Nat)) roster = _
    cases roster.sheets[draft.target]? <;> rfl

/-- The induction is on the updates. -/
theorem writeAll_apply (updates : List SheetUpdate) (roster : Roster) :
    (updates.forM write : Action Unit) roster = .ok () (roster.writeAll updates) := by
  induction updates generalizing roster with
  | nil => rfl
  | cons update updates ih =>
    show (write update >>= fun _ => updates.forM write) roster = _
    rw [then_apply, write, change_apply]
    exact ih _

end Action

/-- An operation changes a roster as the functions on rosters say, or it is refused and leaves the roster
as it was. -/
theorem Operation.perform_eq (operation : Operation) (roster : Roster) :
    operation.perform roster = roster.atOnce (operation.result roster) := by
  cases operation with
  | add sheet => exact Action.add_apply sheet roster
  | write update => exact Action.change_apply _ _ roster
  | writeAll updates => exact Action.writeAll_apply updates roster
  | remove id => rfl
  | bind character holder => exact Action.bind_apply character holder roster
  | release character => rfl
  | commit draft =>
    show (Action.commit draft >>= fun _ => pure ()) roster = _
    rw [Action.then_apply, Action.commit_apply, result]
    cases roster.commit draft <;> rfl
  | ask question => rfl

/-! ## The sheet under an id -/

/-- Two rosters are the same if they hold the same sheets and have given out the same stamps. -/
theorem ext_get? {roster roster' : Roster} (hstamp : roster.lastStamp = roster'.lastStamp)
    (hget : ∀ id, roster.get? id = roster'.get? id) : roster = roster' := by
  obtain ⟨sheets, stamp⟩ := roster
  obtain ⟨sheets', stamp'⟩ := roster'
  obtain rfl : stamp = stamp' := hstamp
  obtain rfl : sheets = sheets' := Std.ExtTreeMap.ext_getElem? hget
  rfl

theorem get?_insert (roster : Roster) (id other : String) (sheet : Sheet) (stamp : Nat) :
    get? { sheets := roster.sheets.insert id sheet, lastStamp := stamp } other =
      if id = other then some sheet else roster.get? other := by
  rw [get?, Std.ExtTreeMap.getElem?_insert]
  simp only [Std.LawfulEqCmp.compare_eq_iff_eq]
  rfl

theorem contains_eq_isSome_get? (roster : Roster) (id : String) :
    roster.sheets.contains id = (roster.get? id).isSome :=
  Std.ExtTreeMap.contains_eq_isSome_getElem?

/-- Only a sheet with a new id is added. -/
theorem add_ok {roster later : Roster} {sheet : Sheet} (h : roster.add sheet = .ok later) :
    roster.get? sheet.id = none ∧ later.lastStamp = roster.lastStamp + 1 ∧
      ∀ id, later.get? id =
        if sheet.id = id then some { sheet with created := roster.lastStamp + 1 }
        else roster.get? id := by
  rw [add, contains_eq_isSome_get?] at h
  cases hget : roster.get? sheet.id with
  | some taken =>
    rw [hget] at h
    cases h
  | none =>
    rw [hget] at h
    cases h
    exact ⟨rfl, rfl, fun id => get?_insert _ _ _ _ _⟩

theorem get?_change (roster : Roster) (id other : String) (edit : Sheet → Sheet) :
    (roster.change id edit).get? other =
      if id = other then
        some (edit ((roster.get? id).getD (.placeholder id (roster.lastStamp + 1))))
      else roster.get? other :=
  get?_insert _ _ _ _ _

theorem get?_remove (roster : Roster) (id other : String) :
    (roster.remove id).1.get? other = if id = other then none else roster.get? other := by
  rw [get?, remove, Std.ExtTreeMap.getElem?_erase]
  simp only [Std.LawfulEqCmp.compare_eq_iff_eq]
  rfl

/-- A holder is bound to a sheet of a character only. -/
theorem bind_ok {roster later : Roster} {character holder : String}
    (h : roster.bind character holder = .ok later) :
    (∃ sheet, roster.get? character = some sheet ∧ sheet.kind = some .character) ∧
      later = roster.change holder fun sheet => { sheet with binding := character } := by
  unfold bind at h
  split at h
  · cases h
  · rename_i sheet hget
    split at h
    · rename_i hkind
      exact ⟨⟨sheet, hget, hkind⟩, (Except.ok.inj h).symm⟩
    · cases h

end Roster

/-- A sheet without its binding, if that is to a character. -/
def Sheet.unbound (character : String) (sheet : Sheet) : Sheet :=
  if sheet.binding == character then { sheet with binding := "" } else sheet

/-- The sheet under an id after a draft was committed. -/
def SheetDraft.writeTo (draft : SheetDraft) (id : String) (sheet : Sheet) : Sheet :=
  if draft.target = id then { sheet with attributes := draft.applyTo sheet.attributes } else sheet

theorem SheetDraft.writeTo_target (draft : SheetDraft) (sheet : Sheet) :
    draft.writeTo draft.target sheet =
      { sheet with attributes := draft.applyTo sheet.attributes } :=
  if_pos rfl

theorem SheetDraft.writeTo_of_ne {draft : SheetDraft} {id : String} (h : draft.target ≠ id)
    (sheet : Sheet) : draft.writeTo id sheet = sheet :=
  if_neg h

theorem SheetDraft.map_writeTo_of_ne {draft : SheetDraft} {id : String} (h : draft.target ≠ id)
    (found : Option Sheet) : found.map (draft.writeTo id) = found := by
  rw [funext (writeTo_of_ne h), Option.map_id']

/-- Nothing is written if nothing was assigned. -/
theorem SheetDraft.writeTo_of_isEmpty {draft : SheetDraft} (h : draft.assigned.isEmpty) (id : String)
    (sheet : Sheet) : draft.writeTo id sheet = sheet := by
  rw [writeTo, applyTo, List.isEmpty_iff.1 h]
  exact ite_self sheet

namespace Roster

theorem get?_release (roster : Roster) (character id : String) :
    (roster.release character).1.get? id = (roster.get? id).map (Sheet.unbound character) :=
  Std.ExtTreeMap.getElem?_map

/-! ### Commits -/

section

variable {roster later : Roster} {draft : SheetDraft}

theorem commit_of_isEmpty (h : draft.assigned.isEmpty) (roster : Roster) :
    roster.commit draft = .ok (roster, 0) :=
  if_pos h

theorem commit_of_absent (h : ¬draft.assigned.isEmpty) (habsent : roster.get? draft.target = none) :
    roster.commit draft = .error (.notFound draft.target) := by
  rw [commit, if_neg h, show roster.sheets[draft.target]? = none from habsent]

theorem commit_of_present {sheet : Sheet} (hsheet : roster.get? draft.target = some sheet) :
    ∃ later, roster.commit draft = .ok (later, draft.assigned.length) := by
  by_cases h : draft.assigned.isEmpty
  · rw [commit_of_isEmpty h, List.isEmpty_iff.1 h]
    exact ⟨roster, rfl⟩
  · rw [commit, if_neg h, show roster.sheets[draft.target]? = some sheet from hsheet]
    exact ⟨_, rfl⟩

/-- A commit changes nothing but the attributes of a sheet that is there. -/
theorem commit_ok {count : Nat} (h : roster.commit draft = .ok (later, count)) :
    later.lastStamp = roster.lastStamp ∧
      ∀ id, later.get? id = (roster.get? id).map (draft.writeTo id) := by
  by_cases hclean : draft.assigned.isEmpty
  · rw [commit_of_isEmpty hclean] at h
    cases h
    refine ⟨rfl, fun id => ?_⟩
    rw [funext (draft.writeTo_of_isEmpty hclean id), Option.map_id']
  · cases hget : roster.get? draft.target with
    | none =>
      rw [commit_of_absent hclean hget] at h
      cases h
    | some sheet =>
      rw [commit, if_neg hclean, show roster.sheets[draft.target]? = some sheet from hget] at h
      cases h
      refine ⟨rfl, fun id => ?_⟩
      rw [get?_insert]
      by_cases htarget : draft.target = id
      · subst htarget
        rw [if_pos rfl, hget, Option.map_some, SheetDraft.writeTo_target]
      · rw [if_neg htarget, SheetDraft.map_writeTo_of_ne htarget]

/-- Carrying out a commit that is not refused commits the draft. -/
theorem Operation.exists_commit_eq (h : (Operation.commit draft).result roster = .ok later) :
    ∃ count, roster.commit draft = .ok (later, count) := by
  rw [result] at h
  cases hcommit : roster.commit draft with
  | error why =>
    rw [hcommit] at h
    cases h
  | ok committed =>
    rw [hcommit] at h
    cases h
    exact ⟨committed.2, rfl⟩

end

/-! ## Histories -/

/-- The roster that an operation leaves behind. -/
def Operation.after (roster : Roster) (operation : Operation) : Roster :=
  match operation.perform roster with
  | .ok _ later => later
  | .error _ later => later

/-- The roster that operations leave behind when they are carried out one after the other. -/
def after (roster : Roster) (history : List Operation) : Roster :=
  history.foldl Operation.after roster

/-- An operation is refused and leaves the roster as it was, or does what its function says. -/
theorem Operation.after_eq (roster : Roster) (operation : Operation) :
    operation.after roster = ((operation.result roster).toOption).getD roster := by
  rw [after, perform_eq]
  cases operation.result roster <;> rfl

end Tabletop.Roster
