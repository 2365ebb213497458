import Tabletop.Proofs.Roster.Census

/-!
# The list of an owner

A roster lists the sheets of an owner that are not hidden.  The list is read off the census, which tells where
its members come from: an operation appends a sheet that is added, strikes one that is removed, or only
continues the census (`Census.Continues`), and what comes into being then is hidden and stays so.  Thus the
list has the sheets that were added to be seen and have not been removed since.

Of the kind of a sheet the list knows nothing.  It is a list of characters if only characters are added to be
seen, and `exists_visibleOf_not_character` is a group in it.
-/

namespace Tabletop

namespace Member

/-- A member is an earlier one, but for its name and type. -/
def IsStill (m earlier : Member) : Prop :=
  m = earlier.renamed m.name m.sheetType

theorem isStill_refl (m : Member) : m.IsStill m :=
  rfl

section

variable {m earlier first : Member} (h : m.IsStill earlier)

include h

theorem IsStill.trans (h' : earlier.IsStill first) : m.IsStill first := by
  rw [IsStill, h'] at h
  exact h

theorem IsStill.id_eq : m.id = earlier.id :=
  h ▸ rfl

theorem IsStill.kind_eq : m.kind = earlier.kind :=
  h ▸ rfl

theorem IsStill.owner_eq : m.owner = earlier.owner :=
  h ▸ rfl

theorem IsStill.hidden_eq : m.hidden = earlier.hidden :=
  h ▸ rfl

end

end Member

/-! ## Where a member comes from -/

namespace Census

/-- A census goes on in a later one: the members are there still, and what is new is hidden. -/
structure Continues (census later : Census) : Prop where
  kept : ∀ earlier ∈ census, ∃ m ∈ later, m.IsStill earlier
  old : ∀ m ∈ later, m.hidden = false → ∃ earlier ∈ census, m.IsStill earlier

theorem Continues.refl (census : Census) : census.Continues census where
  kept m hm := ⟨m, hm, m.isStill_refl⟩
  old m hm _ := ⟨m, hm, m.isStill_refl⟩

theorem Continues.trans {census later last : Census} (h : census.Continues later)
    (h' : later.Continues last) : census.Continues last where
  kept first hfirst := by
    obtain ⟨earlier, hearlier, hstill⟩ := h.kept first hfirst
    obtain ⟨m, hm, hstill'⟩ := h'.kept earlier hearlier
    exact ⟨m, hm, hstill'.trans hstill⟩
  old m hm hvisible := by
    obtain ⟨earlier, hearlier, hstill⟩ := h'.old m hm hvisible
    obtain ⟨first, hfirst, hstill'⟩ := h.old earlier hearlier (hstill.hidden_eq ▸ hvisible)
    exact ⟨first, hfirst, hstill.trans hstill'⟩

theorem continues_change (census : Census) (id : String) {edit : Member → Member}
    (hedit : ∀ m, (edit m).IsStill m) : census.Continues (census.change id edit) := by
  have hsame : ∀ m : Member, (if m.id = id then edit m else m).IsStill m := by
    intro m
    split
    · exact hedit m
    · exact m.isStill_refl
  rw [change]
  split
  · refine ⟨fun m hm => ⟨_, List.mem_map_of_mem hm, hsame m⟩, fun m hm _ => ?_⟩
    obtain ⟨earlier, hearlier, rfl⟩ := List.mem_map.1 hm
    exact ⟨earlier, hearlier, hsame earlier⟩
  · refine ⟨fun m hm => ⟨m, List.mem_append_left _ hm, m.isStill_refl⟩, fun m hm hvisible => ?_⟩
    rcases List.mem_append.1 hm with hold | hnew
    · exact ⟨m, hold, m.isStill_refl⟩
    · rw [List.mem_singleton.1 hnew, (hedit _).hidden_eq] at hvisible
      cases hvisible

theorem continues_write (census : Census) (update : SheetUpdate) :
    census.Continues (census.write update) :=
  continues_change census update.id fun _ => rfl

/-- The induction is on the updates. -/
theorem continues_writeAll (census : Census) (updates : List SheetUpdate) :
    census.Continues (updates.foldl write census) := by
  induction updates generalizing census with
  | nil => exact .refl census
  | cons update updates ih => exact (census.continues_write update).trans (ih _)

/-- A sheet with a new id is appended. -/
theorem step_add {roster : Roster} {sheet : Sheet} (census : Census)
    (habsent : roster.get? sheet.id = none) :
    census.step roster (.add sheet) = census ++ [sheet.member] := by
  obtain ⟨later, hadd⟩ : ∃ later, roster.add sheet = .ok later := by
    rw [Roster.add, Roster.contains_eq_isSome_get?, habsent]
    exact ⟨_, rfl⟩
  exact step_of_ok census hadd

/-- What an operation does to a census. -/
theorem step_cases (roster : Roster) (census : Census) (operation : Roster.Operation) :
    (∃ sheet, operation = .add sheet ∧ roster.get? sheet.id = none ∧
      census.step roster operation = census ++ [sheet.member]) ∨
    (∃ id, operation = .remove id ∧ census.step roster operation = census.filter (·.id != id)) ∨
    (∀ id, operation ≠ .remove id) ∧ census.Continues (census.step roster operation) := by
  cases hresult : operation.result roster with
  | error why =>
    refine .inr (.inr ⟨?_, ?_⟩)
    · rintro id rfl
      cases hresult
    · rw [step_of_error census hresult]
      exact .refl census
  | ok later =>
    rw [step_of_ok census hresult]
    cases operation with
    | add sheet => exact .inl ⟨sheet, rfl, (Roster.add_ok hresult).1, rfl⟩
    | remove id => exact .inr (.inl ⟨id, rfl, rfl⟩)
    | write update => exact .inr (.inr ⟨nofun, census.continues_write update⟩)
    | writeAll updates => exact .inr (.inr ⟨nofun, census.continues_writeAll updates⟩)
    | bind character holder => exact .inr (.inr ⟨nofun, census.continues_change holder fun m => rfl⟩)
    | release character => exact .inr (.inr ⟨nofun, .refl census⟩)
    | commit draft => exact .inr (.inr ⟨nofun, .refl census⟩)
    | ask question => exact .inr (.inr ⟨nofun, .refl census⟩)

/-- A member stays until it is removed. -/
theorem exists_mem_step (roster : Roster) {census : Census} {operation : Roster.Operation}
    {earlier : Member} (h : earlier ∈ census) (hkept : operation ≠ .remove earlier.id) :
    ∃ m ∈ census.step roster operation, m.IsStill earlier := by
  rcases step_cases roster census operation with
    ⟨sheet, -, -, hstep⟩ | ⟨id, rfl, hstep⟩ | ⟨-, hcontinues⟩
  · rw [hstep]
    exact ⟨earlier, List.mem_append_left _ h, earlier.isStill_refl⟩
  · rw [hstep]
    have hne : earlier.id ≠ id := fun hid => hkept (congrArg _ hid.symm)
    exact ⟨earlier, List.mem_filter.2 ⟨h, bne_iff_ne.2 hne⟩, earlier.isStill_refl⟩
  · exact hcontinues.kept earlier h

/-- The induction is on the operations. -/
theorem exists_mem_after {roster : Roster} {census : Census} {history : List Roster.Operation}
    {earlier : Member} (h : earlier ∈ census) (hkept : .remove earlier.id ∉ history) :
    ∃ m ∈ census.after roster history, m.IsStill earlier := by
  induction history generalizing roster census earlier with
  | nil => exact ⟨earlier, h, earlier.isStill_refl⟩
  | cons operation history ih =>
    obtain ⟨hfirst, hrest⟩ := List.ne_and_not_mem_of_not_mem_cons hkept
    obtain ⟨next, hnext, hstill⟩ := exists_mem_step roster h (Ne.symm hfirst)
    obtain ⟨m, hm, hstill'⟩ := ih hnext (hstill.id_eq ▸ hrest)
    exact ⟨m, hm, hstill'.trans hstill⟩

/-- One of the operations of a history adds a sheet with a new id, and none after it removes the sheet. -/
def Adds (roster : Roster) (history : List Roster.Operation) (sheet : Sheet) : Prop :=
  ∃ before later, history = before ++ .add sheet :: later ∧
    (roster.after before).get? sheet.id = none ∧ .remove sheet.id ∉ later

/-- A sheet that is added and not removed is a member. -/
theorem exists_mem_of_adds {roster : Roster} (census : Census) {history : List Roster.Operation}
    {sheet : Sheet} (h : Adds roster history sheet) :
    ∃ m ∈ census.after roster history, m.IsStill sheet.member := by
  obtain ⟨before, later, rfl, habsent, hkept⟩ := h
  rw [after_append, after, step_add _ habsent]
  exact exists_mem_after (List.mem_append_right _ (List.mem_singleton_self _)) hkept

/-- A member that is not hidden was there before an operation that did not remove it, or it is the sheet that
was added. -/
theorem old_or_added_of_mem_step {roster : Roster} {census : Census} {operation : Roster.Operation}
    {m : Member} (h : m ∈ census.step roster operation) (hvisible : m.hidden = false) :
    (operation ≠ .remove m.id ∧ ∃ earlier ∈ census, m.IsStill earlier) ∨
      ∃ sheet, operation = .add sheet ∧ roster.get? sheet.id = none ∧ m = sheet.member := by
  rcases step_cases roster census operation with
    ⟨sheet, rfl, habsent, hstep⟩ | ⟨id, rfl, hstep⟩ | ⟨hne, hcontinues⟩
  · rw [hstep] at h
    rcases List.mem_append.1 h with hold | hnew
    · exact .inl ⟨nofun, m, hold, m.isStill_refl⟩
    · exact .inr ⟨sheet, rfl, habsent, List.mem_singleton.1 hnew⟩
  · rw [hstep] at h
    obtain ⟨hold, hne⟩ := List.mem_filter.1 h
    refine .inl ⟨fun hremove => ?_, m, hold, m.isStill_refl⟩
    cases hremove
    exact bne_iff_ne.1 hne rfl
  · exact .inl ⟨hne m.id, hcontinues.old m h hvisible⟩

/-- A member that is not hidden was there and was not removed, or it was added.  The induction is on the
operations. -/
theorem old_or_adds {roster : Roster} {census : Census} {history : List Roster.Operation} {m : Member}
    (h : m ∈ census.after roster history) (hvisible : m.hidden = false) :
    (.remove m.id ∉ history ∧ ∃ earlier ∈ census, m.IsStill earlier) ∨
      ∃ sheet, Adds roster history sheet ∧ m.IsStill sheet.member := by
  induction history generalizing roster census with
  | nil => exact .inl ⟨List.not_mem_nil, m, h, m.isStill_refl⟩
  | cons operation history ih =>
    rcases ih h with ⟨hkept, next, hnext, hstill⟩ | ⟨sheet, ⟨before, later, rfl, hadds⟩, hstill⟩
    · rcases old_or_added_of_mem_step hnext (hstill.hidden_eq ▸ hvisible) with
        ⟨hne, earlier, hearlier, hstill'⟩ | ⟨sheet, rfl, habsent, rfl⟩
      · rw [← hstill.id_eq] at hne
        exact .inl ⟨List.not_mem_cons_of_ne_of_not_mem hne.symm hkept, earlier, hearlier,
          hstill.trans hstill'⟩
      · have hid : m.id = sheet.id := hstill.id_eq
        exact .inr ⟨sheet, ⟨[], history, rfl, habsent, hid ▸ hkept⟩, hstill⟩
    · exact .inr ⟨sheet, ⟨operation :: before, later, rfl, hadds⟩, hstill⟩

/-- The members of an owner that are not hidden. -/
def visible (census : Census) (owner : String) : Census :=
  census.filter fun m => m.owner == owner && !m.hidden

/-- Those of them that are characters. -/
def characters (census : Census) (owner : String) : Census :=
  (census.visible owner).filter (·.kind == some .character)

theorem mem_visible {census : Census} {owner : String} {m : Member} :
    m ∈ census.visible owner ↔ m ∈ census ∧ m.owner = owner ∧ m.hidden = false := by
  rw [visible, List.mem_filter, Bool.and_eq_true, beq_iff_eq, Bool.not_eq_true']

/-- The visible members are the sheets that have been added to be seen. -/
theorem exists_mem_visible_after_iff (history : List Roster.Operation) (owner id : String)
    (kind : Option SheetKind) :
    (∃ m ∈ (after {} [] history).visible owner, m.id = id ∧ m.kind = kind) ↔
      ∃ sheet, Adds {} history sheet ∧ sheet.id = id ∧ sheet.kind = kind ∧ sheet.owner = owner ∧
        sheet.hidden = false := by
  constructor
  · rintro ⟨m, hm, rfl, rfl⟩
    obtain ⟨hmem, howner, hvisible⟩ := mem_visible.1 hm
    rcases old_or_adds hmem hvisible with ⟨-, _, hnone, -⟩ | ⟨sheet, hadds, hstill⟩
    · cases hnone
    · exact ⟨sheet, hadds, hstill.id_eq.symm, hstill.kind_eq.symm, hstill.owner_eq.symm.trans howner,
        hstill.hidden_eq.symm.trans hvisible⟩
  · rintro ⟨sheet, hadds, rfl, rfl, rfl, hvisible⟩
    obtain ⟨m, hm, hstill⟩ := exists_mem_of_adds [] hadds
    exact ⟨m, mem_visible.2 ⟨hm, hstill.owner_eq, hstill.hidden_eq.trans hvisible⟩, hstill.id_eq,
      hstill.kind_eq⟩

end Census

/-! ## The list -/

namespace Roster

/-- A line of the list of an owner. -/
def line (roster : Roster) (m : Member) : SheetEntry :=
  { id := m.id
    name := m.name
    sheetType := m.sheetType
    bindingCount := (roster.holdersOf m.id).length }

namespace Registers

variable {roster : Roster} {census : Census} (h : roster.Registers census)

include h

/-- The list of an owner is read off the census. -/
theorem visibleOf_eq (owner : String) :
    roster.visibleOf owner = (census.visible owner).map roster.line := by
  obtain ⟨sheets, hlist, hage, hmem⟩ := h.sound.answersByAge.visibleOf owner
  have hsheets : sheets = roster.byAge.filter fun s => s.owner == owner && !s.hidden := by
    refine Sheet.eq_of_mem_iff hage ((pairwise_byAge h.sound).filter _) fun sheet => ?_
    rw [hmem, List.mem_filter, mem_byAge h.sound, Bool.and_eq_true, beq_iff_eq, Bool.not_eq_true']
  rw [hlist, hsheets, Census.visible, ← h.members, List.filter_map, List.map_map]
  rfl

theorem nodup_ids : (census.map Member.id).Nodup := by
  rw [← h.members, List.map_map]
  exact nodup_map_id (pairwise_byAge h.sound) fun sheet hsheet => (mem_byAge h.sound sheet).1 hsheet

end Registers

/-- Whatever has been done with a roster that was empty, the list of an owner has a line for each of its
members with that owner that is not hidden, once and in the order in which they came into being, with the
name and the type that they have now.  These are the sheets that were added with that owner and not hidden,
and have not been removed since, of whatever kind they are; nothing that came into being in another way is
among them.  If each of the sheets that were added so is a character, the list is that of the owner's
characters. -/
theorem after_visibleOf_eq (history : List Operation) (owner : String) :
    let roster := ({} : Roster).after history
    let census := Census.after {} [] history
    roster.byAge.map Sheet.member = census ∧
    roster.visibleOf owner = (census.visible owner).map roster.line ∧
    ((census.visible owner).map Member.id).Nodup ∧
    (∀ id kind, (∃ m ∈ census.visible owner, m.id = id ∧ m.kind = kind) ↔
      ∃ sheet, Census.Adds {} history sheet ∧ sheet.id = id ∧ sheet.kind = kind ∧
        sheet.owner = owner ∧ sheet.hidden = false) ∧
    ((∀ sheet, .add sheet ∈ history → sheet.owner = owner → sheet.hidden = false →
        sheet.kind = some .character) →
      roster.visibleOf owner = (census.characters owner).map roster.line) := by
  intro roster census
  have hregisters : roster.Registers census := registers_empty.after history
  have horigin := Census.exists_mem_visible_after_iff history owner
  refine ⟨hregisters.members, hregisters.visibleOf_eq owner,
    hregisters.nodup_ids.sublist (List.filter_sublist.map _), horigin, fun hadds => ?_⟩
  rw [hregisters.visibleOf_eq, Census.characters, List.filter_eq_self.2 fun m hm => ?_]
  obtain ⟨sheet, ⟨before, later, hhistory, -, -⟩, -, hkind, howner, hvisible⟩ :=
    (horigin m.id m.kind).1 ⟨m, hm, rfl, rfl⟩
  have hmem : .add sheet ∈ history :=
    hhistory ▸ List.mem_append_right before List.mem_cons_self
  rw [← hkind, hadds sheet hmem howner hvisible]
  rfl

/-- A group that is not hidden stands in the list of its owner. -/
theorem exists_visibleOf_not_character :
    let roster := ({} : Roster).after [.add { id := "g", kind := some .group, owner := "o" }]
    (roster.visibleOf "o").map (·.id) = ["g"] ∧ (roster.get? "g").map (·.kind) = some (some .group) := by
  decide +kernel

end Roster
end Tabletop
