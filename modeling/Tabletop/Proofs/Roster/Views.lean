import Tabletop.Proofs.Roster.Age
import Tabletop.Proofs.Roster.Bindings

/-!
# Four views of a binding

Who is bound to a character can be asked of each holder, it is listed, it is counted when the holders are
unbound, and it stands beside the character in the list of an owner.  Each of these goes through the sheets
on its own.  All of them are told by one entry of the map of bindings, `mem_holdersOf_iff`.

The empty id is the binding of every sheet that is bound to nothing, and a holder that is asked says so.  The
lists do not: for them such a sheet is a holder of the empty id, and `exists_holdersOf_not_bound` is a sheet
that is listed and counted under a character that nobody is bound to.
-/

namespace Tabletop

theorem Bindings.entry_inj {binding character : String} :
    entry binding = entry character ↔ binding = character := by
  rw [entry, entry]
  by_cases hbinding : binding = "" <;> by_cases hcharacter : character = "" <;>
    simp [hbinding, hcharacter, eq_comm]

theorem Bindings.entry_of_ne {character : String} (h : character ≠ "") :
    entry character = some character :=
  if_neg h

/-- A sheet that is bound to nothing is not changed when the holders of the empty id are unbound. -/
theorem Sheet.unbound_empty (sheet : Sheet) : sheet.unbound "" = sheet := by
  rw [Sheet.unbound]
  split
  · rename_i hempty
    rw [← beq_iff_eq.1 hempty]
  · rfl

namespace Roster

/-! ## One view after the other -/

section

variable {roster : Roster} (h : roster.Sound)

include h

/-- The holders of a character are the sheets that have its entry. -/
theorem mem_holdersOf_iff (character holder : String) :
    holder ∈ roster.holdersOf character ↔
      (roster.get? holder).isSome ∧ roster.characterOf holder = Bindings.entry character := by
  obtain ⟨sheets, hlist, -, hmem⟩ := h.answersByAge.holdersOf character
  rw [hlist, List.mem_map, characterOf_eq]
  constructor
  · rintro ⟨sheet, hsheet, rfl⟩
    obtain ⟨hget, hbinding⟩ := (hmem sheet).1 hsheet
    rw [hget, ← hbinding]
    exact ⟨rfl, rfl⟩
  · rintro ⟨hsome, hentry⟩
    obtain ⟨sheet, hget⟩ := Option.isSome_iff_exists.1 hsome
    rw [hget, Option.bind_some, Bindings.entry_inj] at hentry
    have hid := h.id_eq holder sheet hget
    exact ⟨sheet, (hmem sheet).2 ⟨hid ▸ hget, hentry⟩, hid⟩

/-- A holder is listed once, since no two sheets are as old as each other. -/
theorem nodup_holdersOf (character : String) : (roster.holdersOf character).Nodup := by
  obtain ⟨sheets, hlist, hage, hmem⟩ := h.answersByAge.holdersOf character
  rw [hlist]
  exact nodup_map_id hage fun sheet hsheet => ((hmem sheet).1 hsheet).1

/-- What stands beside a sheet in the list of its owner is how many holders it has. -/
theorem bindingCount_of_mem_visibleOf {owner : String} {line : SheetEntry}
    (hline : line ∈ roster.visibleOf owner) :
    line.bindingCount = (roster.holdersOf line.id).length := by
  obtain ⟨sheets, hlist, -⟩ := h.answersByAge.visibleOf owner
  rw [hlist] at hline
  obtain ⟨sheet, -, rfl⟩ := List.mem_map.1 hline
  rfl

theorem Sound.release (character : String) : (roster.release character).1.Sound :=
  Operation.sound_after h (.release character)

/-- Nobody is left who was bound to the character. -/
theorem holdersOf_release {character : String} (hne : character ≠ "") :
    (roster.release character).1.holdersOf character = [] := by
  refine List.eq_nil_iff_forall_not_mem.2 fun holder hmem => ?_
  obtain ⟨-, hentry⟩ := (mem_holdersOf_iff (h.release character) character holder).1 hmem
  rw [characterOf_release, Bindings.entry_of_ne hne] at hentry
  exact bne_iff_ne.1 (Option.filter_eq_some_iff.1 hentry).2 rfl

end

/-- As many are counted as are listed. -/
theorem release_snd (roster : Roster) (character : String) :
    (roster.release character).2 = (roster.holdersOf character).length :=
  (roster.length_holdersOf character).symm

/-- To unbind those that are bound to nothing changes nothing. -/
theorem release_empty (roster : Roster) : (roster.release "").1 = roster := by
  refine ext_get? rfl fun id => ?_
  rw [get?_release, funext Sheet.unbound_empty, Option.map_id']

/-! ## Any history -/

/-- Whatever has been done with a roster that was empty: a list of holders names each of them once; it is as
long as the number that is counted when they are unbound, and as the number that stands beside the sheet in
the list of its owner.  Under an id that is not empty, these are the holders that are bound to it, and when
they have been unbound there are none.  Under the empty id, they are the sheets that are bound to nothing,
and to unbind them leaves the roster as it was. -/
theorem after_views_agree (history : List Operation) (character : String) :
    let roster := ({} : Roster).after history
    let released := (roster.release character).1
    (roster.holdersOf character).Nodup ∧
    (roster.release character).2 = (roster.holdersOf character).length ∧
    (∀ owner, ∀ line ∈ roster.visibleOf owner, line.id = character →
      line.bindingCount = (roster.holdersOf character).length) ∧
    (character ≠ "" →
      (∀ holder, holder ∈ roster.holdersOf character ↔ roster.characterOf holder = some character) ∧
      released.holdersOf character = [] ∧
      (∀ holder, released.characterOf holder ≠ some character) ∧
      (released.release character).2 = 0) ∧
    (character = "" →
      (∀ holder, holder ∈ roster.holdersOf character ↔
        (roster.get? holder).isSome ∧ roster.characterOf holder = none) ∧
      released = roster) := by
  intro roster released
  have hsound : roster.Sound := sound_empty.after history
  refine ⟨nodup_holdersOf hsound character, release_snd roster character, ?_, fun hne => ?_, ?_⟩
  · rintro owner line hline rfl
    exact bindingCount_of_mem_visibleOf hsound hline
  · have hnobody := holdersOf_release hsound hne
    refine ⟨fun holder => ?_, hnobody, fun holder hbound => ?_, ?_⟩
    · rw [mem_holdersOf_iff hsound, Bindings.entry_of_ne hne]
      -- a holder that has a character is there
      refine and_iff_right_of_imp fun hbound => ?_
      rw [characterOf_eq] at hbound
      exact Option.isSome_of_isSome_bind (Option.isSome_of_mem hbound)
    · rw [characterOf_release] at hbound
      exact bne_iff_ne.1 (Option.filter_eq_some_iff.1 hbound).2 rfl
    · rw [release_snd, hnobody, List.length_nil]
  · rintro rfl
    exact ⟨mem_holdersOf_iff hsound "", release_empty roster⟩

/-- A sheet may be listed and counted under an id that it is not bound to, and still be when its holders have
been unbound. -/
theorem exists_holdersOf_not_bound :
    let roster := ({} : Roster).after [.add (.character "c" "o" "n")]
    "c" ∈ roster.holdersOf "" ∧ roster.characterOf "c" = none ∧
      ((roster.release "").1.release "").2 = 1 := by
  decide +kernel

end Roster
end Tabletop
