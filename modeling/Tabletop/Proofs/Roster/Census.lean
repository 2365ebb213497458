import Tabletop.Proofs.Roster.Age

/-!
# Census

A census lists the members of a roster in the order in which they came into being, each with its kind, its
owner, whether it is hidden and what it is called.  It has no stamps and is not kept by id: a member that
comes into being is appended, one that is removed is struck, and the others keep their places.

Each operation makes of a census what it makes of the sheets.  `Roster.Registers` is the simulation, and a
history of operations is followed on the roster and on the census side by side.  So the order of the stamps is
the order in which the sheets came into being (`Roster.after_orderly`).
-/

namespace Tabletop

/-- What a roster knows of one of its sheets, apart from bindings and attributes. -/
structure Member where
  id : String
  kind : Option SheetKind
  owner : String
  hidden : Bool
  name : String
  sheetType : String

/-- A sheet as a member. -/
def Sheet.member (sheet : Sheet) : Member where
  id := sheet.id
  kind := sheet.kind
  owner := sheet.owner
  hidden := sheet.hidden
  name := sheet.name
  sheetType := sheet.sheetType

namespace Member

/-- The member that comes into being when an id is used that has none. -/
def placeholder (id : String) : Member where
  id := id
  kind := none
  owner := ""
  hidden := true
  name := ""
  sheetType := ""

/-- A member under another name and type. -/
def renamed (m : Member) (name sheetType : String) : Member :=
  { m with name, sheetType }

end Member

/-- The members of a roster, in the order in which they came into being. -/
abbrev Census := List Member

namespace Census

/-- Changes the member with an id, or one that comes into being. -/
def change (census : Census) (id : String) (edit : Member → Member) : Census :=
  if id ∈ census.map Member.id then census.map fun m => if m.id = id then edit m else m
  else census ++ [edit (.placeholder id)]

/-- Gives a member the name and the type of an update. -/
def write (census : Census) (update : SheetUpdate) : Census :=
  census.change update.id (·.renamed update.name update.sheetType)

/-- What an operation makes of a census if it is not refused. -/
def next (census : Census) : Roster.Operation → Census
  | .add sheet => census ++ [sheet.member]
  | .write update => census.write update
  | .writeAll updates => updates.foldl write census
  | .remove id => census.filter (·.id != id)
  | .bind _ holder => census.change holder id
  | .release _ => census
  | .commit _ => census
  | .ask _ => census

/-- What an operation makes of a census when a roster is asked for it. -/
def step (roster : Roster) (census : Census) (operation : Roster.Operation) : Census :=
  match operation.perform roster with
  | .ok _ _ => census.next operation
  | .error _ _ => census

/-- The census after a history of operations that a roster is asked for. -/
def after (roster : Roster) (census : Census) : List Roster.Operation → Census
  | [] => census
  | operation :: history => after (operation.after roster) (census.step roster operation) history

theorem step_of_ok {roster later : Roster} {operation : Roster.Operation} (census : Census)
    (h : operation.result roster = .ok later) : census.step roster operation = census.next operation := by
  rw [step, Roster.Operation.perform_eq, h]
  rfl

theorem step_of_error {roster : Roster} {operation : Roster.Operation} {why : RosterError}
    (census : Census) (h : operation.result roster = .error why) :
    census.step roster operation = census := by
  rw [step, Roster.Operation.perform_eq, h]
  rfl

/-- The induction is on the operations. -/
theorem after_append (roster : Roster) (census : Census) (before history : List Roster.Operation) :
    after roster census (before ++ history) =
      after (roster.after before) (after roster census before) history := by
  induction before generalizing roster census with
  | nil => rfl
  | cons operation before ih => exact ih _ _

end Census

/-! ## The sheets by age -/

namespace Roster

/-- A sheet that is there is edited where it is. -/
theorem get?_change_of_present {roster : Roster} {id : String} {sheet : Sheet}
    (h : roster.get? id = some sheet) (edit : Sheet → Sheet) (other : String) :
    (roster.change id edit).get? other =
      (roster.get? other).map fun sheet => if id = other then edit sheet else sheet := by
  rw [get?_change]
  by_cases hid : id = other
  · subst hid
    simp only [if_pos, h, Option.getD_some, Option.map_some]
  · simp only [if_neg hid, Option.map_id']

/-- The sheets of a roster in the order of creation. -/
def byAge (roster : Roster) : List Sheet :=
  Sheet.byAge roster.all

section

variable {roster later : Roster} (h : roster.Sound) (hlater : later.Sound)

include h

theorem mem_byAge (sheet : Sheet) : sheet ∈ roster.byAge ↔ roster.get? sheet.id = some sheet :=
  (Sheet.byAge_perm _).mem_iff.trans (mem_all h sheet)

theorem pairwise_byAge : roster.byAge.Pairwise fun a b => a.created < b.created :=
  Sheet.pairwise_lt_byAge (pairwise_all h)

/-- There is one list only with all sheets in the order of creation. -/
theorem eq_byAge {sheets : List Sheet} (hage : sheets.Pairwise fun a b => a.created < b.created)
    (hmem : ∀ sheet, sheet ∈ sheets ↔ roster.get? sheet.id = some sheet) : sheets = roster.byAge :=
  Sheet.eq_of_mem_iff hage (pairwise_byAge h) fun sheet => (hmem sheet).trans (mem_byAge h sheet).symm

include hlater

/-- Sheets that are edited stay in their places. -/
theorem byAge_of_map {edit : String → Sheet → Sheet}
    (hget : ∀ id, later.get? id = (roster.get? id).map (edit id))
    (hedit : ∀ id sheet, (edit id sheet).id = sheet.id ∧ (edit id sheet).created = sheet.created) :
    later.byAge = roster.byAge.map fun sheet => edit sheet.id sheet := by
  refine (eq_byAge hlater ?_ fun sheet' => ?_).symm
  · rw [List.pairwise_map]
    exact (pairwise_byAge h).imp fun {a b} hlt => by rwa [(hedit _ a).2, (hedit _ b).2]
  · rw [List.mem_map, hget, Option.map_eq_some_iff]
    constructor
    · rintro ⟨sheet, hsheet, rfl⟩
      rw [(hedit _ sheet).1]
      exact ⟨sheet, (mem_byAge h sheet).1 hsheet, rfl⟩
    · rintro ⟨sheet, hsheet, hsame⟩
      have hid := h.id_eq _ sheet hsheet
      exact ⟨sheet, (mem_byAge h sheet).2 (hid ▸ hsheet), hid ▸ hsame⟩

/-- A sheet that comes into being is the last. -/
theorem byAge_of_append {new : Sheet} (habsent : roster.get? new.id = none)
    (hcreated : new.created = roster.lastStamp + 1)
    (hget : ∀ id, later.get? id = if new.id = id then some new else roster.get? id) :
    later.byAge = roster.byAge ++ [new] := by
  refine (eq_byAge hlater ?_ fun sheet => ?_).symm
  · refine List.pairwise_append.2 ⟨pairwise_byAge h, List.pairwise_singleton _ _, ?_⟩
    intro sheet hsheet _ hnew
    obtain rfl := List.mem_singleton.1 hnew
    have hstamp := (h.created_mem _ sheet ((mem_byAge h sheet).1 hsheet)).2
    omega
  · rw [List.mem_append, mem_byAge h, List.mem_singleton, hget]
    by_cases hid : new.id = sheet.id
    · rw [if_pos hid, ← hid, habsent, Option.some.injEq, @eq_comm _ sheet]
      exact or_iff_right nofun
    · rw [if_neg hid]
      exact or_iff_left fun hsame => hid (congrArg Sheet.id hsame.symm)

omit hlater

/-- A sheet that is removed leaves its place. -/
theorem byAge_remove (id : String) :
    (roster.remove id).1.byAge = roster.byAge.filter (·.id != id) := by
  refine (eq_byAge (h.alters (alters_remove roster id)) ((pairwise_byAge h).filter _) ?_).symm
  intro sheet
  rw [List.mem_filter, mem_byAge h, get?_remove, bne_iff_ne]
  by_cases hid : id = sheet.id
  · rw [if_pos hid]
    exact iff_of_false (fun hand => hand.2 hid.symm) nofun
  · rw [if_neg hid]
    exact and_iff_left (Ne.symm hid)

end

/-! ## The simulation -/

/-- The sheets of a roster, in the order of creation, are the members of a census. -/
structure Registers (roster : Roster) (census : Census) : Prop where
  sound : roster.Sound
  members : roster.byAge.map Sheet.member = census

theorem registers_empty : Registers {} [] where
  sound := sound_empty
  members := by
    rw [← eq_byAge sound_empty List.Pairwise.nil fun _ => iff_of_false List.not_mem_nil nofun]
    rfl

namespace Registers

variable {roster later : Roster} {census : Census} (h : roster.Registers census)

include h

theorem mem_ids_iff (id : String) : id ∈ census.map Member.id ↔ (roster.get? id).isSome := by
  rw [← h.members, List.map_map, List.mem_map, Option.isSome_iff_exists]
  constructor
  · rintro ⟨sheet, hsheet, rfl⟩
    exact ⟨sheet, (mem_byAge h.sound sheet).1 hsheet⟩
  · rintro ⟨sheet, hget⟩
    have hid := h.sound.id_eq id sheet hget
    exact ⟨sheet, (mem_byAge h.sound sheet).2 (hid ▸ hget), hid⟩

/-- Nothing changes in a census when the sheets are edited apart from what it knows of them. -/
theorem map {edit : String → Sheet → Sheet} (hlater : later.Sound)
    (hget : ∀ id, later.get? id = (roster.get? id).map (edit id))
    (hcreated : ∀ id sheet, (edit id sheet).created = sheet.created)
    (hmember : ∀ id sheet, (edit id sheet).member = sheet.member) : later.Registers census where
  sound := hlater
  members := by
    have hedit : ∀ id sheet, (edit id sheet).id = sheet.id ∧ (edit id sheet).created = sheet.created :=
      fun id sheet => ⟨congrArg Member.id (hmember id sheet), hcreated id sheet⟩
    rw [byAge_of_map h.sound hlater hget hedit, List.map_map, ← h.members]
    exact List.map_congr_left fun sheet _ => hmember _ sheet

theorem change (id : String) {edit : Sheet → Sheet} {edit' : Member → Member}
    (hedit : ∀ sheet, (edit sheet).id = sheet.id ∧ (edit sheet).created = sheet.created)
    (hmember : ∀ sheet, (edit sheet).member = edit' sheet.member) :
    (roster.change id edit).Registers (census.change id edit') where
  sound := h.sound.alters (alters_change roster id edit hedit)
  members := by
    have hlater := h.sound.alters (alters_change roster id edit hedit)
    rw [Census.change]
    cases hget : roster.get? id with
    | none =>
      have habsent : id ∉ census.map Member.id := by
        rw [h.mem_ids_iff, hget]
        exact Bool.false_ne_true
      obtain ⟨hid, hcreated⟩ := hedit (.placeholder id (roster.lastStamp + 1))
      change (edit _).id = id at hid
      have hnew : roster.get? (edit (.placeholder id (roster.lastStamp + 1))).id = none := by
        rw [hid, hget]
      have happend := byAge_of_append h.sound hlater hnew hcreated fun other => by
        rw [get?_change, hget, hid]
        rfl
      rw [if_neg habsent, happend, List.map_append, h.members]
      exact congrArg (census ++ [·]) (hmember _)
    | some sheet =>
      have hthere : id ∈ census.map Member.id := by
        rw [h.mem_ids_iff, hget]
        rfl
      have hkept : ∀ other (sheet : Sheet), (if id = other then edit sheet else sheet).id = sheet.id ∧
          (if id = other then edit sheet else sheet).created = sheet.created := by
        intro other sheet
        split
        · exact hedit sheet
        · exact ⟨rfl, rfl⟩
      have hmap := byAge_of_map h.sound hlater (get?_change_of_present hget edit) hkept
      rw [if_pos hthere, hmap, List.map_map, ← h.members, List.map_map]
      refine List.map_congr_left fun sheet _ => ?_
      show Sheet.member (if id = sheet.id then edit sheet else sheet) =
        if sheet.id = id then edit' sheet.member else sheet.member
      rw [apply_ite Sheet.member, hmember]
      simp only [eq_comm]

theorem write (update : SheetUpdate) : (roster.write update).Registers (census.write update) :=
  h.change update.id (fun _ => ⟨rfl, rfl⟩) fun _ => rfl

/-- The induction is on the updates. -/
theorem writeAll (updates : List SheetUpdate) :
    (roster.writeAll updates).Registers (updates.foldl Census.write census) := by
  induction updates generalizing roster census with
  | nil => exact h
  | cons update updates ih => exact ih (h.write update)

theorem add {sheet : Sheet} (hadd : roster.add sheet = .ok later) :
    later.Registers (census ++ [sheet.member]) where
  sound := h.sound.alters (alters_of_add hadd)
  members := by
    obtain ⟨habsent, -, hget⟩ := add_ok hadd
    have happend : later.byAge = roster.byAge ++ [{ sheet with created := roster.lastStamp + 1 }] :=
      byAge_of_append h.sound (h.sound.alters (alters_of_add hadd)) habsent rfl hget
    rw [happend, List.map_append, h.members]
    rfl

theorem remove (id : String) : (roster.remove id).1.Registers (census.filter (·.id != id)) where
  sound := h.sound.alters (alters_remove roster id)
  members := by
    rw [byAge_remove h.sound, ← h.members, List.filter_map]
    rfl

/-- An operation that is not refused does to the sheets what it does to the census. -/
theorem next {operation : Operation} (hresult : operation.result roster = .ok later) :
    later.Registers (census.next operation) := by
  cases operation with
  | add sheet => exact h.add hresult
  | write update =>
    cases hresult
    exact h.write update
  | writeAll updates =>
    cases hresult
    exact h.writeAll updates
  | remove id =>
    cases hresult
    exact h.remove id
  | bind character holder =>
    obtain ⟨-, rfl⟩ := bind_ok hresult
    exact h.change holder (fun _ => ⟨rfl, rfl⟩) fun _ => rfl
  | release character =>
    cases hresult
    refine h.map (h.sound.alters (alters_release roster character)) (get?_release roster character) ?_ ?_
    all_goals
      intro _ sheet
      rw [Sheet.unbound]
      split <;> rfl
  | commit draft =>
    obtain ⟨_, hcommit⟩ := Operation.exists_commit_eq hresult
    refine h.map (h.sound.alters (alters_of_commit hresult)) (commit_ok hcommit).2 ?_ ?_
    all_goals
      intro _ sheet
      rw [SheetDraft.writeTo]
      split <;> rfl
  | ask question =>
    cases hresult
    exact h

/-- Every operation keeps the simulation, whether it is refused or not. -/
theorem step (operation : Operation) :
    (operation.after roster).Registers (census.step roster operation) := by
  rw [Operation.after_eq]
  cases hresult : operation.result roster with
  | error why =>
    rw [Census.step_of_error census hresult]
    exact h
  | ok later =>
    rw [Census.step_of_ok census hresult]
    exact h.next hresult

/-- The induction is on the operations. -/
theorem after (history : List Operation) :
    (roster.after history).Registers (census.after roster history) := by
  induction history generalizing roster census with
  | nil => exact h
  | cons operation history ih => exact ih (h.step operation)

end Registers

/-! ## Any history -/

/-- Whatever has been done with a roster that was empty: every sheet stands under its id, no two have the same
stamp, and no stamp is beyond the last one given out; a sheet keeps its stamp while it stays; and a sheet that
comes into being later has a later stamp than all that were given out before, also if its id is used again.  In
the order of their stamps the sheets are those of the census, to which each sheet is appended when it comes into
being.  An operation that is refused changes nothing, the last stamp included; and the answers are by age. -/
theorem after_orderly (history : List Operation) :
    let roster := ({} : Roster).after history
    roster.Sound ∧
    (∀ (later : List Operation) (id : String) (sheet sheet' : Sheet), roster.get? id = some sheet →
      (∀ part, part <+: later → ((roster.after part).get? id).isSome) →
      (roster.after later).get? id = some sheet' → sheet'.created = sheet.created) ∧
    (∀ (later : List Operation) (id : String) (sheet : Sheet), roster.get? id = none →
      (roster.after later).get? id = some sheet → roster.lastStamp < sheet.created) ∧
    roster.byAge.map Sheet.member = Census.after {} [] history ∧
    (∀ (operation : Operation) (why : RosterError) (left : Roster),
      operation.perform roster = .error why left → left = roster) ∧
    roster.AnswersByAge := by
  intro roster
  have hregisters : roster.Registers (Census.after {} [] history) := registers_empty.after history
  exact ⟨hregisters.sound, fun later _ _ _ => created_after_of_stays later,
    fun later _ _ => lt_created_of_absent later, hregisters.members,
    fun _ _ _ => Operation.eq_of_perform_error, hregisters.sound.answersByAge⟩

/-- A sheet whose id is used again is not as old as the one that was removed. -/
theorem after_orderly_returned :
    let roster := ({} : Roster).after [.add { id := "a" }, .write { id := "b" }, .remove "a"]
    roster.lastStamp = 2 ∧ roster.get? "a" = none ∧
      ∃ sheet, (roster.after [.write { id := "a" }]).get? "a" = some sheet ∧ 2 < sheet.created := by
  intro roster
  have hlast : roster.lastStamp = 2 := by decide +kernel
  have habsent : roster.get? "a" = none := by decide +kernel
  have hsome : ((roster.after [.write { id := "a" }]).get? "a").isSome := by decide +kernel
  obtain ⟨sheet, hsheet⟩ := Option.isSome_iff_exists.1 hsome
  obtain ⟨-, -, hlater, -⟩ := after_orderly [.add { id := "a" }, .write { id := "b" }, .remove "a"]
  exact ⟨hlast, habsent, sheet, hsheet, hlast ▸ hlater _ "a" sheet habsent hsheet⟩

end Roster
end Tabletop
