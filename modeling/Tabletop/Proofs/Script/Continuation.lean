import Tabletop.Proofs.Script.Completeness
import Tabletop.Proofs.Script.Faults
import Tabletop.Proofs.Script.Relocation
import Tabletop.Proofs.Token.Spacing

/-!
# How tokens go on

Tokens are the beginning of a script if some text that is a script has them as its first tokens, whatever
stands between them.  Reading decides this.  Tokens that can be read begin a script (`Script.begins_of_run`),
since whatever is pending can be brought to an end: an operand is put where one is missing, and then each
opening is given the token that it waits for (`Pending.completable`).  Tokens that cannot be read begin none
(`Script.not_begins_of_run`), since what is read of a token depends on the token and not on its place.
-/

namespace Tabletop

open Text

/-! ## Places do not matter -/

namespace Pending

theorem toOption_read_unplaced (p : Pending) (t : Token) :
    (p.read (.ofToken t)).toOption = (p.read (.ofToken { t with start := 0 })).toOption := by
  have hword : Word.ofToken t = (Word.ofToken { t with start := 0 }).shift t.start := by
    have hshift := @Word.ofToken_shift { t with start := 0 } t.start fun here inner _ =>
      Script.read_add here _ inner
    rw [← hshift, Token.shift, Nat.zero_add]
  rw [hword, read_shift, toOption_mapError]

theorem toOption_read_congr (p : Pending) {t u : Token} (h : t.bare = u.bare) :
    (p.read (.ofToken t)).toOption = (p.read (.ofToken u)).toOption := by
  obtain ⟨hkind, htext⟩ := Prod.mk.inj h
  rw [toOption_read_unplaced, toOption_read_unplaced p u, hkind, htext]

theorem toOption_run_append (p : Pending) (ts us : List Token) :
    (p.run (ts ++ us)).toOption = (p.run ts).toOption.bind fun q => (q.run us).toOption := by
  rw [run, List.map_append, List.foldlM_append, toOption_bind]
  rfl

theorem toOption_run_cons (p : Pending) (t : Token) (ts : List Token) :
    (p.run (t :: ts)).toOption =
      (p.read (.ofToken t)).toOption.bind fun q => (q.run ts).toOption := by
  rw [run, List.map_cons, List.foldlM_cons, toOption_bind]
  rfl

/-- The induction is on the tokens. -/
theorem toOption_run_congr (p : Pending) {ts us : List Token}
    (h : ts.map Token.bare = us.map Token.bare) : (p.run ts).toOption = (p.run us).toOption := by
  induction ts generalizing p us with
  | nil =>
    obtain rfl := List.map_eq_nil_iff.1 h.symm
    rfl
  | cons t ts ih =>
    obtain ⟨u, us, rfl, hu, hus⟩ := List.map_eq_cons_iff.1 h.symm
    rw [toOption_run_cons, toOption_run_cons, p.toOption_read_congr hu]
    exact congrArg _ (funext fun q => ih q hus.symm)

theorem toOption_finish (p : Pending) (stop : Nat) :
    (p.finish stop).toOption = (p.finish 0).toOption := by
  rw [← Nat.zero_add stop, finish_add, toOption_mapError]

end Pending

namespace Script

/-- The script that tokens are read as, wherever they stand. -/
def ofTokens? (ts : List Token) : Option Script :=
  (Pending.start.run ts).toOption.bind fun p => (p.finish 0).toOption

theorem toOption_read (start : Nat) (source : List Char) :
    (read start source).toOption = ofTokens? (Token.scan start source) := by
  rw [read_eq, toOption_bind]
  exact congrArg _ (funext fun p => p.toOption_finish _)

theorem ofTokens?_congr {ts us : List Token} (h : ts.map Token.bare = us.map Token.bare) :
    ofTokens? ts = ofTokens? us := by
  rw [ofTokens?, Pending.start.toOption_run_congr h, ofTokens?]

/-- The tokens of a text decide whether it is a script. -/
theorem ofSource_eq_ok_iff {source : String} {s : Script} :
    ofSource source = .ok s ↔ ofTokens? (Token.scan 0 source.toList) = some s := by
  rw [ofSource, ← toOption_eq_some, toOption_read]

end Script

/-! ## Whatever is pending can be completed -/

namespace Pending

/-- Only proper tokens are read. -/
theorem isProper_of_read {p q : Pending} {t : Token} (h : p.read (.ofToken t) = .ok q) :
    t.kind.IsProper := by
  obtain ⟨before, openings, links, operand⟩ := p
  obtain ⟨kind, text, start⟩ := t
  cases kind with
  | unknown | unclosedString | unclosedTemplate =>
    cases operand with
    | none => cases h
    | some e =>
      cases openings with
      | nil => cases h
      | cons opening openings =>
        obtain ⟨opening, outer⟩ := opening
        cases opening <;> cases h
  | _ => exact ⟨nofun, nofun, nofun⟩

theorem isProper_of_run {p q : Pending} {ts : List Token} (h : p.run ts = .ok q) :
    ∀ t ∈ ts, t.kind.IsProper := by
  induction ts generalizing p with
  | nil => exact nofun
  | cons t ts ih =>
    cases hread : p.read (.ofToken t) with
    | error e =>
      rw [run, List.map_cons, List.foldlM_cons, hread] at h
      cases h
    | ok next =>
      rw [run_cons ts hread] at h
      exact List.forall_mem_cons.2 ⟨isProper_of_read hread, ih h⟩

section

variable (before : Option Script) (openings : List (Opening × List Link)) (outer links : List Link)

theorem read_rightParen (e : Expr) :
    read ⟨before, (.paren, outer) :: openings, links, some e⟩ (.ofToken (.sample .rightParen)) =
      .ok ⟨before, openings, outer, some (.paren (Link.close links e))⟩ :=
  rfl

theorem read_colon (condition e : Expr) :
    read ⟨before, (.consequent condition, outer) :: openings, links, some e⟩
        (.ofToken (.sample .colon)) =
      .ok ⟨before, openings, .alternative condition (Link.close links e) :: outer, none⟩ :=
  rfl

theorem read_identifier :
    read ⟨before, openings, links, none⟩ (.ofToken (.sample .identifier)) =
      .ok ⟨before, openings, links, some (.name "x")⟩ :=
  rfl

theorem ofToken_sample_template :
    Word.ofToken (.sample .template) = { token := .sample .template, segments := .ok [] } := by
  have hbody : Segment.readBody 1 [] = .ok [] := by
    rw [Segment.readBody, Piece.ofBody_nil]
    rfl
  exact congrArg (Word.mk (.sample .template)) hbody

/-- An operand is read where one has to begin. -/
theorem exists_read_operand {kind : TokenKind} (h : kind ∈ operandKinds) :
    ∃ q, read ⟨before, openings, links, none⟩ (.ofToken (.sample kind)) = .ok q := by
  cases kind with
  | leftParen | integer | dice | identifier | string => exact ⟨_, rfl⟩
  | template =>
    rw [ofToken_sample_template]
    exact ⟨_, rfl⟩
  | _ => exact absurd h (by decide)

end

/-- Whatever is expected can be read. -/
theorem exists_read_of_mem_expected (p : Pending) {kind : TokenKind} (h : kind ∈ p.expected) :
    ∃ q, p.read (.ofToken (.sample kind)) = .ok q := by
  obtain ⟨before, openings, links, operand⟩ := p
  cases operand with
  | none => exact exists_read_operand before openings links h
  | some e =>
    cases openings with
    | nil =>
      obtain rfl := List.mem_singleton.1 h
      exact ⟨_, rfl⟩
    | cons opening openings =>
      obtain ⟨opening, outer⟩ := opening
      obtain rfl := List.mem_singleton.1 h
      cases opening with
      | paren => exact ⟨_, read_rightParen before openings outer links e⟩
      | consequent condition => exact ⟨_, read_colon before openings outer links condition e⟩

/-- Tokens can be put behind what has been read that make a script of the whole. -/
def Completable (p : Pending) : Prop :=
  ∃ ts : List Token, (∀ t ∈ ts, t.Alone) ∧ ∃ q s, p.run ts = .ok q ∧ q.finish 0 = .ok s

theorem Completable.of_read {p q : Pending} {kind : TokenKind}
    (hread : p.read (.ofToken (.sample kind)) = .ok q) (h : q.Completable) : p.Completable := by
  obtain ⟨ts, halone, r, s, hrun, hfinish⟩ := h
  have hsample := Token.alone_sample (isProper_of_read hread)
  refine ⟨.sample kind :: ts, List.forall_mem_cons.2 ⟨hsample, halone⟩, r, s, ?_, hfinish⟩
  rw [run_cons ts hread, hrun]

/-- Behind an operand each opening is given the token that it waits for, and behind a colon there is another
operand.  The induction is on the openings. -/
theorem completable_of_operand (before : Option Script) (openings : List (Opening × List Link))
    (links : List Link) (e : Expr) : Completable ⟨before, openings, links, some e⟩ := by
  induction openings generalizing links e with
  | nil => exact ⟨[], nofun, _, _, rfl, rfl⟩
  | cons opening openings ih =>
    obtain ⟨opening, outer⟩ := opening
    cases opening with
    | paren => exact .of_read (read_rightParen before openings outer links e) (ih _ _)
    | consequent condition =>
      refine .of_read (read_colon before openings outer links condition e) ?_
      exact .of_read (read_identifier before openings _) (ih _ _)

theorem completable (p : Pending) : p.Completable := by
  obtain ⟨before, openings, links, operand⟩ := p
  cases operand with
  | some e => exact completable_of_operand before openings links e
  | none => exact .of_read (read_identifier before openings links) (completable_of_operand _ _ _ _)

end Pending

/-! ## Beginnings of scripts -/

namespace Script

/-- A source text that is a script has these tokens as its first. -/
def Begins (ts : List BareToken) : Prop :=
  ∃ source script, ofSource source = .ok script ∧ ts <+: (Token.scan 0 source.toList).map Token.bare

/-- A source text that is a script has these tokens and no others. -/
def IsWhole (ts : List BareToken) : Prop :=
  ∃ source script, ofSource source = .ok script ∧ (Token.scan 0 source.toList).map Token.bare = ts

/-- Tokens that are read are the beginning of a script. -/
theorem begins_of_run {ts : List Token} {p : Pending} (halone : ∀ t ∈ ts, t.Alone)
    (h : Pending.start.run ts = .ok p) : Begins (ts.map Token.bare) := by
  obtain ⟨us, hus, q, s, hrun, hfinish⟩ := p.completable
  have hscan : (Token.scan 0 (Token.spaced (ts ++ us))).map Token.bare = (ts ++ us).map Token.bare :=
    Token.map_bare_scan_spaced (List.forall_mem_append.2 ⟨halone, hus⟩) 0
  have hwhole : ofTokens? (ts ++ us) = some s := by
    rw [ofTokens?, Pending.run_append us h, hrun]
    exact toOption_eq_some.2 hfinish
  refine ⟨String.ofList (Token.spaced (ts ++ us)), s, ?_, ?_⟩
  · rw [ofSource_eq_ok_iff, String.toList_ofList, ofTokens?_congr hscan, hwhole]
  · rw [String.toList_ofList, hscan, List.map_append]
    exact List.prefix_append _ _

/-- Tokens that are not read are the beginning of no script. -/
theorem not_begins_of_run {ts : List Token} {e : SyntaxError} (h : Pending.start.run ts = .error e) :
    ¬Begins (ts.map Token.bare) := by
  rintro ⟨source, script, hread, rest, hrest⟩
  obtain ⟨us, vs, hscan, hus, -⟩ := List.map_eq_append_iff.1 hrest.symm
  rw [ofSource_eq_ok_iff, hscan, ofTokens?, Pending.toOption_run_append,
    Pending.start.toOption_run_congr hus, h] at hread
  cases hread

/-- Tokens that are read as no script are not those of a text that is one. -/
theorem not_isWhole_of_ofTokens? {ts : List Token} (h : ofTokens? ts = none) :
    ¬IsWhole (ts.map Token.bare) := by
  rintro ⟨source, script, hread, hscan⟩
  rw [ofSource_eq_ok_iff, ofTokens?_congr hscan, h] at hread
  cases hread

end Script
end Tabletop
