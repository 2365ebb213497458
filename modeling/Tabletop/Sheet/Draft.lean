import Tabletop.Sheet.Basic

/-!
# Drafts

A script is evaluated against a copy of a sheet's attributes. The copy remembers which names were
assigned, so that writing it back touches those attributes and no others, even if the sheet has changed in
the meantime.
-/

namespace Tabletop

/-- A copy of the attributes of one sheet to evaluate against, apart from the store that it came from.
It remembers which names were assigned. -/
structure SheetDraft where
  target : String
  attributes : Variables
  assigned : List String := []
  deriving DecidableEq

namespace SheetDraft

/-- Whether anything was assigned. -/
def isDirty (d : SheetDraft) : Bool :=
  !d.assigned.isEmpty

instance : Context SheetDraft where
  get d name := d.attributes[name]?
  set d name value :=
    { d with
      attributes := d.attributes.insert name value
      assigned := if d.assigned.contains name then d.assigned else d.assigned ++ [name] }

/-- The attributes of a sheet after the assigned ones have been written to them. -/
def applyTo (d : SheetDraft) (attributes : Variables) : Variables :=
  d.assigned.foldl
    (fun attributes name =>
      match d.attributes[name]? with
      | some value => attributes.insert name value
      | none => attributes)
    attributes

end SheetDraft
end Tabletop
