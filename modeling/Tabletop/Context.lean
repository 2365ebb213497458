import Std.Data.ExtTreeMap
import Tabletop.Value.Basic

/-!
# Contexts

A context is where the variables of a script live. A run reads from it and keeps its assignments apart
from it; they are written to the context only after the run has succeeded.
-/

namespace Tabletop

/-- A store of named values. -/
class Context (γ : Type) where
  get : γ → String → Option Value
  set : γ → String → Value → γ

/-- Variables by name. -/
abbrev Variables := Std.ExtTreeMap String Value

instance : Context Variables where
  get vars name := vars[name]?
  set vars name value := vars.insert name value

/-- A context that has no variables and forgets what is assigned. -/
structure NoVariables where
  deriving DecidableEq, Repr

instance : Context NoVariables where
  get _ _ := none
  set c _ _ := c

/-- A context together with every assignment made to it, in order. -/
structure Recorded (γ : Type) where
  context : γ
  assignments : List (String × Value) := []

instance {γ : Type} [Context γ] : Context (Recorded γ) where
  get c name := Context.get c.context name
  set c name value :=
    { context := Context.set c.context name value, assignments := c.assignments ++ [(name, value)] }

/-- Assignments that wait to be written: each name once, in the order in which the names were first
assigned, with the value that was assigned last. -/
abbrev Writes := List (String × Value)

namespace Writes

/-- The value that waits under a name. -/
def get? : Writes → String → Option Value
  | [], _ => none
  | (other, value) :: writes, name => if other = name then some value else get? writes name

/-- Adds an assignment. -/
def set : Writes → String → Value → Writes
  | [], name, value => [(name, value)]
  | (other, old) :: writes, name, value =>
    if other = name then (name, value) :: writes else (other, old) :: set writes name value

/-- Writes the assignments to a context, one after the other. -/
def commit {γ : Type} [Context γ] (writes : Writes) (context : γ) : γ :=
  writes.foldl (fun c (name, value) => Context.set c name value) context

end Writes
end Tabletop
