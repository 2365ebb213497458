import Tabletop.Sheet.Draft

/-!
# Rosters

A roster keeps sheets by id. Whatever may bring a sheet into being takes a new stamp, so stamps tell the
order of creation. An operation that is refused changes nothing.
-/

namespace Tabletop

/-- Why a roster refuses an operation. -/
inductive RosterError where
  | notFound (id : String)
  | alreadyExists (id : String)
  | notACharacter (id : String)
  deriving DecidableEq, Repr

/-- The wording of a refusal. -/
def RosterError.message : RosterError → String
  | notFound id => "no sheet with id " ++ Text.quote id
  | alreadyExists id => "sheet " ++ Text.quote id ++ " already exists"
  | notACharacter id => "sheet " ++ Text.quote id ++ " is not a character"

/-- What is written to one sheet. -/
structure SheetUpdate where
  id : String
  attributes : Variables := ∅
  name : String := ""
  sheetType : String := ""

/-- Sheets by id, and the stamp that was given out last. -/
structure Roster where
  sheets : Std.ExtTreeMap String Sheet := ∅
  lastStamp : Nat := 0

namespace Roster

/-- The sheet with an id. -/
def get? (roster : Roster) (id : String) : Option Sheet :=
  roster.sheets[id]?

/-- All sheets. -/
def all (roster : Roster) : List Sheet :=
  roster.sheets.values

/-- How many sheets there are. -/
def size (roster : Roster) : Nat :=
  roster.sheets.size

/-- Adds a sheet under its id, with the next stamp. -/
def add (roster : Roster) (sheet : Sheet) : Except RosterError Roster :=
  if roster.sheets.contains sheet.id then .error (.alreadyExists sheet.id)
  else
    let stamp := roster.lastStamp + 1
    .ok
      { sheets := roster.sheets.insert sheet.id { sheet with created := stamp }
        lastStamp := stamp }

/-- Changes the sheet with an id, which comes into being with the next stamp if there is none. The stamp
is taken in both cases. -/
def change (roster : Roster) (id : String) (edit : Sheet → Sheet) : Roster :=
  let stamp := roster.lastStamp + 1
  let sheet := (roster.sheets[id]?).getD (.placeholder id stamp)
  { sheets := roster.sheets.insert id (edit sheet), lastStamp := stamp }

/-- Replaces the attributes, the name and the type of a sheet. -/
def write (roster : Roster) (update : SheetUpdate) : Roster :=
  roster.change update.id fun sheet =>
    { sheet with
      attributes := update.attributes, name := update.name, sheetType := update.sheetType }

/-- Writes several updates in order. -/
def writeAll (roster : Roster) (updates : List SheetUpdate) : Roster :=
  updates.foldl write roster

/-- Takes a sheet out of the roster, and says whether there was one. -/
def remove (roster : Roster) (id : String) : Roster × Bool :=
  ({ roster with sheets := roster.sheets.erase id }, roster.sheets.contains id)

/-- Binds a holder to a character. -/
def bind (roster : Roster) (character holder : String) : Except RosterError Roster :=
  match roster.sheets[character]? with
  | none => .error (.notFound character)
  | some sheet =>
    if sheet.kind = some .character then
      .ok (roster.change holder fun sheet => { sheet with binding := character })
    else .error (.notACharacter character)

/-- Unbinds every holder that is bound to a character, and counts them. -/
def release (roster : Roster) (character : String) : Roster × Nat :=
  let unbind (sheet : Sheet) : Sheet :=
    if sheet.binding == character then { sheet with binding := "" } else sheet
  ({ roster with sheets := roster.sheets.map fun _ sheet => unbind sheet },
    roster.all.countP (·.binding == character))

/-- The holders that are bound to a character, the oldest first. -/
def holdersOf (roster : Roster) (character : String) : List String :=
  Sheet.holdersOf character roster.all

/-- The character that a holder is bound to. -/
def characterOf (roster : Roster) (holder : String) : Option String :=
  ((roster.sheets[holder]?).filter Sheet.isBound).map (·.binding)

/-- The oldest sheet with an owner and a name. -/
def named? (roster : Roster) (owner name : String) : Option String :=
  Sheet.oldestNamed? owner name roster.all

/-- The visible sheets of an owner, the oldest first. -/
def visibleOf (roster : Roster) (owner : String) : List SheetEntry :=
  Sheet.visibleOf owner roster.all

/-- The id of the sheet that is used for an id: the character that it is bound to, if that exists, and
itself otherwise. -/
def target (roster : Roster) (id : String) : String :=
  match roster.characterOf id with
  | some character => if roster.sheets.contains character then character else id
  | none => id

/-- A draft of the sheet that is used for an id, empty if there is no such sheet. -/
def draft (roster : Roster) (id : String) : SheetDraft :=
  let target := roster.target id
  { target, attributes := ((roster.sheets[target]?).map Sheet.attributes).getD ∅ }

/-- Writes what was assigned in a draft to its sheet, and counts it. A draft in which nothing was
assigned is always accepted. -/
def commit (roster : Roster) (draft : SheetDraft) : Except RosterError (Roster × Nat) :=
  if draft.assigned.isEmpty then .ok (roster, 0)
  else
    match roster.sheets[draft.target]? with
    | none => .error (.notFound draft.target)
    | some sheet =>
      let sheet := { sheet with attributes := draft.applyTo sheet.attributes }
      .ok ({ roster with sheets := roster.sheets.insert draft.target sheet }, draft.assigned.length)

end Roster
end Tabletop
