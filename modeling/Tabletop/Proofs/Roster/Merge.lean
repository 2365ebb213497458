import Mathlib.Data.List.Pairwise
import Tabletop.Proofs.Roster.Drafts

/-!
# Sessions that overlap

Several sessions take drafts of a roster, evaluate on them for a while and commit them, in whatever order.
A draft holds a value for every attribute that its sheet had when it was taken, and these values may be out
of date by the time of the commit.  The roster takes from each commit only what was assigned: after any
sequence of commits an attribute has the value of the last commit that assigned it, as if nobody had held
any other value.

A session is told by the roster and the id that its draft was taken for, and by the calls on it.  A draft
that is copied gives two sessions that begin with the same calls.
-/

namespace Tabletop

/-- A draft from when it is taken until it is committed. -/
structure Session where
  /-- The roster as it was when the draft was taken. -/
  roster : Roster
  id : String
  /-- What was evaluated on the draft. -/
  calls : List Call

namespace Session

/-- The draft as it was taken. -/
def taken (s : Session) : SheetDraft :=
  s.roster.draft s.id

/-- The draft that is committed. -/
def draft (s : Session) : SheetDraft :=
  Call.contextAfter s.taken s.calls

/-- The sheet that the session is about. -/
def target (s : Session) : String :=
  s.taken.target

/-- The value that the session has assigned last to an attribute. -/
def assigned? (s : Session) (name : String) : Option Value :=
  (Call.assignments s.taken s.calls).reverse.lookup name

/-- What the session has assigned last to an attribute of a sheet. -/
def assignedTo? (s : Session) (id name : String) : Option Value :=
  if s.target = id then s.assigned? name else none

/-- The operation that ends the session. -/
def commit (s : Session) : Roster.Operation :=
  .commit s.draft

/-- What the last of several sessions that has assigned an attribute of a sheet has assigned to it. -/
def lastAssigned? (sessions : List Session) (id name : String) : Option Value :=
  sessions.reverse.findSome? (·.assignedTo? id name)

/-- The sessions are about different sheets or assign different attributes. -/
def Apart (s s' : Session) : Prop :=
  s.target ≠ s'.target ∨ ∀ name, s.assigned? name = none ∨ s'.assigned? name = none

theorem tracks (s : Session) :
    s.taken.Tracks s.draft (Call.assignments s.taken s.calls) :=
  (SheetDraft.tracks_taken rfl).contextAfter s.calls

theorem lastAssigned?_cons (s : Session) (sessions : List Session) (id name : String) :
    lastAssigned? (s :: sessions) id name =
      (lastAssigned? sessions id name).or (s.assignedTo? id name) := by
  rw [lastAssigned?, List.reverse_cons, List.findSome?_append, List.findSome?_singleton]
  rfl

instance : Std.Symm Apart where
  symm _ _ h := h.imp Ne.symm fun hnames name => (hnames name).symm

theorem Apart.assignedTo? {s s' : Session} (h : s.Apart s') (id name : String) :
    s.assignedTo? id name = none ∨ s'.assignedTo? id name = none := by
  unfold Session.assignedTo?
  by_cases hs : s.target = id
  · by_cases hs' : s'.target = id
    · rw [if_pos hs, if_pos hs']
      exact h.resolve_left (not_not_intro (hs.trans hs'.symm)) name
    · exact .inr (if_neg hs')
  · exact .inl (if_neg hs)

/-- For sessions that are apart it does not matter which comes first. -/
theorem Apart.or_comm {s s' : Session} (h : s.Apart s') (id name : String) :
    (s.assignedTo? id name).or (s'.assignedTo? id name) =
      (s'.assignedTo? id name).or (s.assignedTo? id name) := by
  cases h.assignedTo? id name with
  | inl hs => rw [hs, Option.none_or, Option.or_none]
  | inr hs' => rw [hs', Option.none_or, Option.or_none]

end Session

namespace Roster

variable {roster later final : Roster} {given given' : String → String → Option Value}

/-! ## Overwriting attributes -/

/-- Some attributes of the sheets that are there have been `given` values, by the id of the sheet and the
name of the attribute.  All else is as it was. -/
structure Overwrites (roster later : Roster) (given : String → String → Option Value) : Prop where
  lastStamp : later.lastStamp = roster.lastStamp
  absent : ∀ id, roster.get? id = none → later.get? id = none
  present : ∀ id sheet, roster.get? id = some sheet → ∃ attributes : Variables,
    later.get? id = some { sheet with attributes } ∧
      ∀ name, Context.get attributes name = (given id name).or (Context.get sheet.attributes name)

namespace Overwrites

theorem refl (roster : Roster) : roster.Overwrites roster fun _ _ => none where
  lastStamp := rfl
  absent _ h := h
  present _ sheet h := ⟨sheet.attributes, h, fun _ => rfl⟩

/-- What is given later goes before what was given earlier. -/
theorem trans (h : roster.Overwrites later given) (h' : later.Overwrites final given') :
    roster.Overwrites final fun id name => (given' id name).or (given id name) where
  lastStamp := h'.lastStamp.trans h.lastStamp
  absent id hget := h'.absent id (h.absent id hget)
  present id sheet hget := by
    obtain ⟨attributes, hlater, hgiven⟩ := h.present id sheet hget
    obtain ⟨attributes', hfinal, hgiven'⟩ := h'.present id _ hlater
    refine ⟨attributes', hfinal, fun name => ?_⟩
    rw [hgiven', hgiven, Option.or_assoc]

/-- What is given determines the roster. -/
theorem unique (h : roster.Overwrites later given) (h' : roster.Overwrites final given) :
    later = final := by
  refine ext_get? (h.lastStamp.trans h'.lastStamp.symm) fun id => ?_
  cases hget : roster.get? id with
  | none => rw [h.absent id hget, h'.absent id hget]
  | some sheet =>
    obtain ⟨attributes, hlater, hgiven⟩ := h.present id sheet hget
    obtain ⟨attributes', hfinal, hgiven'⟩ := h'.present id sheet hget
    have hsame : attributes = attributes' :=
      Variables.ext fun name => (hgiven name).trans (hgiven' name).symm
    rw [hlater, hfinal, hsame]

end Overwrites

/-! ## One commit -/

/-- A commit, whether it is refused or not, does to each sheet what its draft writes to it. -/
theorem after_commit (roster : Roster) (draft : SheetDraft) :
    ((Operation.commit draft).after roster).lastStamp = roster.lastStamp ∧
      ∀ id, ((Operation.commit draft).after roster).get? id =
        (roster.get? id).map (draft.writeTo id) := by
  rw [Operation.after_eq, Operation.result]
  cases hcommit : roster.commit draft with
  | ok committed => exact commit_ok hcommit
  | error why =>
    refine ⟨rfl, fun id => ?_⟩
    show roster.get? id = _
    by_cases htarget : draft.target = id
    · subst htarget
      cases hsheet : roster.get? draft.target with
      | none => rfl
      | some sheet =>
        obtain ⟨later, hok⟩ := commit_of_present hsheet
        rw [hok] at hcommit
        cases hcommit
    · rw [SheetDraft.map_writeTo_of_ne htarget]

/-- A commit gives what its session has assigned. -/
theorem overwrites_commit (roster : Roster) (s : Session) :
    roster.Overwrites (s.commit.after roster) s.assignedTo? := by
  obtain ⟨hstamp, hget⟩ := roster.after_commit s.draft
  have htarget : s.draft.target = s.target := s.tracks.target
  refine ⟨hstamp, fun id hnone => ?_, fun id sheet hsheet => ?_⟩
  · rw [Session.commit, hget, hnone, Option.map_none]
  · rw [Session.commit, hget, hsheet, Option.map_some]
    by_cases hid : s.target = id
    · refine ⟨s.draft.applyTo sheet.attributes, ?_, fun name => ?_⟩
      · rw [SheetDraft.writeTo, if_pos (htarget.trans hid)]
      · rw [s.tracks.get_applyTo, Session.assignedTo?, if_pos hid]
        rfl
    · refine ⟨sheet.attributes, ?_, fun name => ?_⟩
      · rw [SheetDraft.writeTo_of_ne (htarget ▸ hid)]
      · rw [Session.assignedTo?, if_neg hid, Option.none_or]

/-- What a commit answers depends on which sheets there are, and on nothing in them. -/
theorem Overwrites.commit_answer (h : roster.Overwrites later given) (draft : SheetDraft) :
    (later.commit draft).map Prod.snd = (roster.commit draft).map Prod.snd := by
  by_cases hclean : draft.assigned.isEmpty
  · rw [commit_of_isEmpty hclean, commit_of_isEmpty hclean]
    rfl
  · cases hget : roster.get? draft.target with
    | none => rw [commit_of_absent hclean hget, commit_of_absent hclean (h.absent _ hget)]
    | some sheet =>
      obtain ⟨attributes, hlater, -⟩ := h.present _ sheet hget
      obtain ⟨_, hcommit⟩ := commit_of_present hget
      obtain ⟨_, hcommit'⟩ := commit_of_present hlater
      rw [hcommit, hcommit']
      rfl

/-! ## Many commits -/

/-- The induction is on the sessions, in the order of their commits. -/
theorem overwrites_after (roster : Roster) (sessions : List Session) :
    roster.Overwrites (roster.after (sessions.map Session.commit))
      (Session.lastAssigned? sessions) := by
  induction sessions generalizing roster with
  | nil => exact .refl roster
  | cons s sessions ih =>
    have hboth := (roster.overwrites_commit s).trans (ih (s.commit.after roster))
    rw [show Session.lastAssigned? (s :: sessions) = _ from
      funext fun id => funext fun name => Session.lastAssigned?_cons s sessions id name]
    exact hboth

/-- Commits of sessions that are apart can be exchanged. -/
theorem commit_comm {s s' : Session} (h : s.Apart s') (roster : Roster) :
    s'.commit.after (s.commit.after roster) = s.commit.after (s'.commit.after roster) := by
  have hone := (roster.overwrites_commit s).trans (overwrites_commit _ s')
  have hother := (roster.overwrites_commit s').trans (overwrites_commit _ s)
  simp only [h.or_comm] at hother
  exact hone.unique hother

/-- The order of the commits does not matter if the sessions are apart. -/
theorem after_perm {sessions sessions' : List Session} (hperm : sessions'.Perm sessions)
    (hapart : sessions.Pairwise Session.Apart) (roster : Roster) :
    roster.after (sessions'.map Session.commit) = roster.after (sessions.map Session.commit) := by
  rw [Roster.after, Roster.after, List.foldl_map, List.foldl_map]
  refine (hperm.symm.foldl_eq' (fun s hs s' hs' between => ?_) roster).symm
  by_cases hsame : s = s'
  · rw [hsame]
  · exact commit_comm (hapart.forall hs hs' hsame) between

/-- However sessions overlap, their commits merge attribute by attribute.  Afterwards an attribute of a
sheet has the value that the last of the sessions which assigned it has assigned to it, and the value that
it had if there is no such session; no value that a session has only held is written.  All else of the
sheets, which sheets there are and the stamps are as they were, and a further commit is answered as it would
have been before.  Where the sessions are about different sheets or assign different attributes, the order of
the commits does not matter. -/
theorem after_commits_merge (roster : Roster) (sessions : List Session) :
    roster.Overwrites (roster.after (sessions.map Session.commit))
        (Session.lastAssigned? sessions) ∧
      (∀ draft, ((roster.after (sessions.map Session.commit)).commit draft).map Prod.snd =
        (roster.commit draft).map Prod.snd) ∧
      ∀ sessions' : List Session, sessions'.Perm sessions → sessions.Pairwise Session.Apart →
        roster.after (sessions'.map Session.commit) = roster.after (sessions.map Session.commit) := by
  have hmerge := roster.overwrites_after sessions
  exact ⟨hmerge, hmerge.commit_answer, fun _ hperm hapart => after_perm hperm hapart roster⟩

end Roster
end Tabletop
