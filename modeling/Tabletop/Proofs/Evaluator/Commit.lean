import Tabletop.Proofs.Run.Writes

/-!
# What a context holds after a commit

A context is lawful if it behaves as a map: what was written under a name is found there, and the other
names keep their values.  In a lawful context the writes of a run are found as they waited, since no name
waits twice, and every other name has the value that it had before.
-/

namespace Tabletop

/-- A context that behaves as a map. -/
structure Context.Lawful (γ : Type) [Context γ] : Prop where
  get_set : ∀ (context : γ) (name other : String) (v : Value),
    get (set context name v) other = if name = other then some v else get context other

theorem Variables.lawful : Context.Lawful Variables where
  get_set vars name other v := by
    show (vars.insert name v)[other]? = _
    rw [Std.ExtTreeMap.getElem?_insert]
    simp only [Std.LawfulEqCmp.compare_eq_iff_eq]
    rfl

/-- Maps that hold the same under every name are the same. -/
theorem Variables.ext {vars vars' : Variables}
    (h : ∀ name, Context.get vars name = Context.get vars' name) : vars = vars' :=
  Std.ExtTreeMap.ext_getElem? fun name => h name

namespace Writes

theorem get?_eq_none {writes : Writes} {name : String} (h : name ∉ writes.map Prod.fst) :
    writes.get? name = none := by
  induction writes with
  | nil => rfl
  | cons write writes ih =>
    obtain ⟨key, v⟩ := write
    rw [List.map_cons, List.mem_cons, not_or] at h
    rw [get?, if_neg (Ne.symm h.1), ih h.2]

/-- After a commit a name has the value that waited under it, else the one it had before. -/
theorem get_commit {γ : Type} [Context γ] (hlawful : Context.Lawful γ) {writes : Writes}
    (hnodup : (writes.map Prod.fst).Nodup) (context : γ) (name : String) :
    Context.get (writes.commit context) name =
      (writes.get? name).or (Context.get context name) := by
  induction writes generalizing context with
  | nil => rfl
  | cons write writes ih =>
    obtain ⟨key, v⟩ := write
    rw [List.map_cons, List.nodup_cons] at hnodup
    show Context.get (commit writes (Context.set context key v)) name = _
    rw [ih hnodup.2, hlawful.get_set, get?]
    by_cases hkey : key = name
    · rw [if_pos hkey, if_pos hkey, get?_eq_none (hkey ▸ hnodup.1)]
      rfl
    · rw [if_neg hkey, if_neg hkey]

end Writes
end Tabletop
