import Mathlib.Data.List.Basic
import Tabletop.Proofs.Roster.Stamps

/-!
# Answers by age

The lists of a roster and the search for a name go through the sheets in whatever order they are kept.
Since no two sheets have the same stamp, `Sheet.byAge` gives one and the same list for all of these orders
(`byAge_eq_of_perm`), in the order of creation, and the first sheet of it is the oldest.
-/

namespace Tabletop

namespace Sheet

/-! ## Sheets with different stamps -/

theorem byAge_perm (sheets : List Sheet) : (byAge sheets).Perm sheets :=
  List.mergeSort_perm _ _

theorem pairwise_le_byAge (sheets : List Sheet) :
    (byAge sheets).Pairwise fun a b => a.created ≤ b.created := by
  have hsorted : (byAge sheets).Pairwise fun a b => decide (a.created ≤ b.created) := by
    refine List.pairwise_mergeSort (fun a b c hab hbc => ?_) (fun a b => ?_) sheets
    · simp only [decide_eq_true_eq] at hab hbc ⊢
      omega
    · simp only [Bool.or_eq_true, decide_eq_true_eq]
      omega
  exact hsorted.imp fun h => of_decide_eq_true h

variable {sheets sheets' : List Sheet}

/-- Sheets with different stamps are strictly in the order of creation. -/
theorem pairwise_lt_byAge (h : sheets.Pairwise fun a b => a.created ≠ b.created) :
    (byAge sheets).Pairwise fun a b => a.created < b.created := by
  have hne := ((byAge_perm sheets).pairwise_iff fun h => h.symm).2 h
  exact (pairwise_le_byAge sheets).imp₂ (fun _ _ hle hne => Nat.lt_of_le_of_ne hle hne) hne

/-- There is one list only of the same sheets in the order of creation. -/
theorem eq_of_mem_iff (h : sheets.Pairwise fun a b => a.created < b.created)
    (h' : sheets'.Pairwise fun a b => a.created < b.created)
    (hmem : ∀ sheet, sheet ∈ sheets ↔ sheet ∈ sheets') : sheets = sheets' := by
  have hnodup : ∀ {l : List Sheet}, l.Pairwise (fun a b => a.created < b.created) → l.Nodup :=
    fun hl => hl.imp fun hlt => ne_of_apply_ne Sheet.created (Nat.ne_of_lt hlt)
  refine List.Perm.eq_of_pairwise ?_ h h' ?_
  · intro a b _ _ hab hba
    omega
  · exact (List.perm_ext_iff_of_nodup (hnodup h) (hnodup h')).2 hmem

/-- The order in which the sheets are gone through does not matter. -/
theorem byAge_eq_of_perm (h : sheets.Pairwise fun a b => a.created ≠ b.created)
    (hperm : sheets'.Perm sheets) : byAge sheets' = byAge sheets := by
  have h' := (hperm.pairwise_iff fun h => h.symm).2 h
  refine eq_of_mem_iff (pairwise_lt_byAge h') (pairwise_lt_byAge h) fun sheet => ?_
  rw [(byAge_perm sheets').mem_iff, hperm.mem_iff, (byAge_perm sheets).mem_iff]

/-- The first sheet is the oldest. -/
theorem head?_byAge_eq_some_iff (h : sheets.Pairwise fun a b => a.created ≠ b.created) (sheet : Sheet) :
    (byAge sheets).head? = some sheet ↔
      sheet ∈ sheets ∧ ∀ other ∈ sheets, sheet.created ≤ other.created := by
  have hlt := pairwise_lt_byAge h
  have hmem : ∀ s, s ∈ byAge sheets ↔ s ∈ sheets := fun s => (byAge_perm sheets).mem_iff
  cases hage : byAge sheets with
  | nil =>
    have hnone : sheet ∉ sheets := by
      rw [← hmem, hage]
      exact List.not_mem_nil
    exact iff_of_false (by simp) fun hand => hnone hand.1
  | cons first rest =>
    rw [hage] at hmem hlt
    have hfirst : ∀ other ∈ rest, first.created < other.created :=
      fun _ => List.rel_of_pairwise_cons hlt
    constructor
    · intro hhead
      obtain rfl : first = sheet := Option.some.inj hhead
      refine ⟨(hmem first).1 List.mem_cons_self, fun other hother => ?_⟩
      rcases List.mem_cons.1 ((hmem other).2 hother) with rfl | hrest
      · exact Nat.le_refl _
      · exact Nat.le_of_lt (hfirst other hrest)
    · rintro ⟨hsheet, holdest⟩
      rcases List.mem_cons.1 ((hmem sheet).2 hsheet) with rfl | hrest
      · rfl
      · have hle := holdest first ((hmem first).1 List.mem_cons_self)
        have hlt := hfirst sheet hrest
        omega

end Sheet

namespace Roster

/-! ## The sheets of a roster -/

theorem all_eq (roster : Roster) : roster.all = roster.sheets.toList.map Prod.snd := by
  rcases roster with ⟨⟨⟨sheets⟩⟩, lastStamp⟩
  induction sheets using Quotient.inductionOn with
  | _ sheets =>
    show sheets.inner.values = (Std.DTreeMap.Internal.Impl.Const.toList sheets.inner).map Prod.snd
    rw [Std.DTreeMap.Internal.Impl.values_eq_map_snd,
      Std.DTreeMap.Internal.Impl.Const.toList_eq_toListModel_map, List.map_map]
    rfl

theorem mem_all {roster : Roster} (h : roster.Sound) (sheet : Sheet) :
    sheet ∈ roster.all ↔ roster.get? sheet.id = some sheet := by
  rw [all_eq, List.mem_map]
  constructor
  · rintro ⟨⟨id, _⟩, hmem, rfl⟩
    have hget : roster.get? id = some _ := Std.ExtTreeMap.mem_toList_iff_getElem?_eq_some.1 hmem
    rwa [h.id_eq id _ hget]
  · intro hget
    exact ⟨(sheet.id, sheet), Std.ExtTreeMap.mem_toList_iff_getElem?_eq_some.2 hget, rfl⟩

theorem pairwise_all {roster : Roster} (h : roster.Sound) :
    roster.all.Pairwise fun a b => a.created ≠ b.created := by
  rw [all_eq, List.pairwise_map]
  refine Std.ExtTreeMap.distinct_keys_toList.imp_of_mem ?_
  intro a b ha hb hne hsame
  have hgeta := Std.ExtTreeMap.mem_toList_iff_getElem?_eq_some.1 ha
  have hgetb := Std.ExtTreeMap.mem_toList_iff_getElem?_eq_some.1 hb
  exact hne (Std.LawfulEqCmp.compare_eq_iff_eq.2 (h.created_inj _ _ _ _ hgeta hgetb hsame))

/-- Sheets of different ages have different ids. -/
theorem nodup_map_id {roster : Roster} {sheets : List Sheet}
    (hage : sheets.Pairwise fun a b => a.created < b.created)
    (hget : ∀ sheet ∈ sheets, roster.get? sheet.id = some sheet) : (sheets.map (·.id)).Nodup := by
  rw [List.Nodup, List.pairwise_map]
  refine hage.imp_of_mem fun {a b} ha hb hlt hid => ?_
  have hgeta := hget a ha
  rw [hid, hget b hb] at hgeta
  cases hgeta
  exact Nat.lt_irrefl _ hlt

/-! ## The answers -/

/-- As many holders are listed as are counted. -/
theorem length_holdersOf (roster : Roster) (character : String) :
    (roster.holdersOf character).length = roster.all.countP (·.binding == character) := by
  rw [Roster.holdersOf, Sheet.holdersOf, List.length_map, (Sheet.byAge_perm _).length_eq,
    List.countP_eq_length_filter]

/-- A line of a list of sheets, for a sheet of the roster. -/
def entry (roster : Roster) (sheet : Sheet) : SheetEntry :=
  { id := sheet.id
    name := sheet.name
    sheetType := sheet.sheetType
    bindingCount := (roster.holdersOf sheet.id).length }

/-- What a roster answers tells nothing about how its sheets are kept: the lists are in the order of
creation, and a name leads to the oldest sheet that has it. -/
structure AnswersByAge (roster : Roster) : Prop where
  /-- The answers are the same for every order in which the sheets are gone through. -/
  anyOrder : ∀ sheets : List Sheet, sheets.Perm roster.all →
    (∀ character, Sheet.holdersOf character sheets = roster.holdersOf character) ∧
    (∀ owner, Sheet.visibleOf owner sheets = roster.visibleOf owner) ∧
    ∀ owner name, Sheet.oldestNamed? owner name sheets = roster.named? owner name
  /-- The holders of a character are listed strictly in the order of creation. -/
  holdersOf : ∀ character, ∃ sheets : List Sheet,
    roster.holdersOf character = sheets.map (·.id) ∧
    sheets.Pairwise (fun a b => a.created < b.created) ∧
    ∀ sheet, sheet ∈ sheets ↔ roster.get? sheet.id = some sheet ∧ sheet.binding = character
  /-- The visible sheets of an owner are listed strictly in the order of creation. -/
  visibleOf : ∀ owner, ∃ sheets : List Sheet,
    roster.visibleOf owner = sheets.map roster.entry ∧
    sheets.Pairwise (fun a b => a.created < b.created) ∧
    ∀ sheet, sheet ∈ sheets ↔
      roster.get? sheet.id = some sheet ∧ sheet.owner = owner ∧ sheet.hidden = false
  /-- A name leads to the oldest of the sheets with that owner and name. -/
  named : ∀ owner name id, roster.named? owner name = some id ↔
    ∃ sheet, roster.get? id = some sheet ∧ sheet.owner = owner ∧ sheet.name = name ∧
      ∀ other, roster.get? other.id = some other → other.owner = owner → other.name = name →
        sheet.created ≤ other.created
  /-- It leads nowhere only if there is none. -/
  unnamed : ∀ owner name, roster.named? owner name = none ↔
    ∀ sheet, roster.get? sheet.id = some sheet → ¬(sheet.owner = owner ∧ sheet.name = name)

section

variable {roster : Roster} (h : roster.Sound)

include h

theorem pairwise_filter_all (p : Sheet → Bool) :
    (roster.all.filter p).Pairwise fun a b => a.created ≠ b.created :=
  (pairwise_all h).filter p

theorem byAge_filter_of_perm {sheets : List Sheet} (hperm : sheets.Perm roster.all)
    (p : Sheet → Bool) : Sheet.byAge (sheets.filter p) = Sheet.byAge (roster.all.filter p) :=
  Sheet.byAge_eq_of_perm (pairwise_filter_all h p) (hperm.filter p)

theorem mem_byAge_filter_all (p : Sheet → Bool) (sheet : Sheet) :
    sheet ∈ Sheet.byAge (roster.all.filter p) ↔
      roster.get? sheet.id = some sheet ∧ p sheet = true := by
  rw [(Sheet.byAge_perm _).mem_iff, List.mem_filter, mem_all h]

theorem named?_eq_some_iff (owner name id : String) :
    roster.named? owner name = some id ↔
      ∃ sheet, roster.get? id = some sheet ∧ sheet.owner = owner ∧ sheet.name = name ∧
        ∀ other, roster.get? other.id = some other → other.owner = owner → other.name = name →
          sheet.created ≤ other.created := by
  rw [named?, Sheet.oldestNamed?, Option.map_eq_some_iff]
  simp only [Sheet.head?_byAge_eq_some_iff (pairwise_filter_all h _), List.mem_filter, mem_all h,
    Bool.and_eq_true, beq_iff_eq]
  constructor
  · rintro ⟨sheet, ⟨⟨hget, howner, hname⟩, holdest⟩, rfl⟩
    exact ⟨sheet, hget, howner, hname, fun other hother ho hn => holdest other ⟨hother, ho, hn⟩⟩
  · rintro ⟨sheet, hget, howner, hname, holdest⟩
    have hid := h.id_eq id sheet hget
    exact ⟨sheet, ⟨⟨hid ▸ hget, howner, hname⟩, fun other hother =>
      holdest other hother.1 hother.2.1 hother.2.2⟩, hid⟩

theorem named?_eq_none_iff (owner name : String) :
    roster.named? owner name = none ↔
      ∀ sheet, roster.get? sheet.id = some sheet → ¬(sheet.owner = owner ∧ sheet.name = name) := by
  rw [named?, Sheet.oldestNamed?, Option.map_eq_none_iff, List.head?_eq_none_iff,
    List.eq_nil_iff_forall_not_mem]
  simp only [mem_byAge_filter_all h, Bool.and_eq_true, beq_iff_eq, not_and]

/-- Sound rosters answer by age. -/
theorem Sound.answersByAge : roster.AnswersByAge where
  anyOrder sheets hperm := by
    refine ⟨fun character => ?_, fun owner => ?_, fun owner name => ?_⟩
    · rw [Sheet.holdersOf, byAge_filter_of_perm h hperm]
      rfl
    · simp only [Sheet.visibleOf, byAge_filter_of_perm h hperm, hperm.countP_eq]
      rfl
    · rw [Sheet.oldestNamed?, byAge_filter_of_perm h hperm]
      rfl
  holdersOf character := by
    refine ⟨_, rfl, Sheet.pairwise_lt_byAge (pairwise_filter_all h _), fun sheet => ?_⟩
    rw [mem_byAge_filter_all h, beq_iff_eq]
  visibleOf owner := by
    refine ⟨Sheet.byAge (roster.all.filter fun s => s.owner == owner && !s.hidden), ?_,
      Sheet.pairwise_lt_byAge (pairwise_filter_all h _), fun sheet => ?_⟩
    · have hentry : roster.entry = fun s =>
          { id := s.id, name := s.name, sheetType := s.sheetType
            bindingCount := roster.all.countP (·.binding == s.id) } := by
        funext s
        rw [entry, length_holdersOf]
      rw [hentry]
      rfl
    · rw [mem_byAge_filter_all h, Bool.and_eq_true, beq_iff_eq, Bool.not_eq_true']
  named := named?_eq_some_iff h
  unnamed := named?_eq_none_iff h

end

end Roster
end Tabletop
