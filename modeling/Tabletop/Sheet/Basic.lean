import Tabletop.Context
import Tabletop.Text.Quoted

/-!
# Character sheets

A sheet holds the attributes of a character, or stands for someone who plays: a user, a group, or a user
inside a group. Such a holder can be bound to a character, whose attributes it then uses. The queries
below take any list of sheets and answer in the order in which the sheets were created.
-/

namespace Tabletop

/-- What a sheet stands for. -/
inductive SheetKind where
  | character
  | groupUser
  | group
  | user
  deriving DecidableEq, Repr

namespace SheetKind

/-- The word for a kind. -/
def text : SheetKind → String
  | character => "character"
  | groupUser => "group_user"
  | group => "group"
  | user => "user"

/-- Every kind once. -/
def all : List SheetKind :=
  [character, groupUser, group, user]

end SheetKind

/-- A sheet. The `binding` is the id of the character that it is bound to, and empty if there is none;
`created` is the stamp that the store gave it when it came into being. -/
structure Sheet where
  id : String
  kind : Option SheetKind := none
  name : String := ""
  sheetType : String := ""
  owner : String := ""
  hidden : Bool := false
  binding : String := ""
  attributes : Variables := ∅
  created : Nat := 0

/-- A line of a list of sheets: the sheet, and how many others are bound to it. -/
structure SheetEntry where
  id : String
  name : String
  sheetType : String
  bindingCount : Nat
  deriving DecidableEq, Repr

namespace Sheet

/-- A sheet of a character. -/
def character (id owner name : String) : Sheet :=
  { id, owner, name, kind := some .character }

/-- The sheet that comes into being when an id is written to that has none: hidden, and of no kind. -/
def placeholder (id : String) (created : Nat) : Sheet :=
  { id, hidden := true, created }

/-- Whether a sheet is bound to a character. -/
def isBound (s : Sheet) : Bool :=
  s.binding != ""

/-- Sheets in the order in which they were created. -/
def byAge (sheets : List Sheet) : List Sheet :=
  sheets.mergeSort fun a b => a.created ≤ b.created

/-- The ids of the sheets that have `character` as their binding. -/
def holdersOf (character : String) (sheets : List Sheet) : List String :=
  (byAge (sheets.filter (·.binding == character))).map (·.id)

/-- The id of the oldest sheet with an owner and a name. -/
def oldestNamed? (owner name : String) (sheets : List Sheet) : Option String :=
  (byAge (sheets.filter fun s => s.owner == owner && s.name == name)).head?.map (·.id)

/-- The sheets of an owner that are not hidden. -/
def visibleOf (owner : String) (sheets : List Sheet) : List SheetEntry :=
  (byAge (sheets.filter fun s => s.owner == owner && !s.hidden)).map fun s =>
    { id := s.id, name := s.name, sheetType := s.sheetType
      bindingCount := sheets.countP (·.binding == s.id) }

end Sheet

end Tabletop
