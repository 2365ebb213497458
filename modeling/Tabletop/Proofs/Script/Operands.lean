import Tabletop.Proofs.Script.Acceptance
import Tabletop.Proofs.Script.Joining
import Tabletop.Proofs.Token.Separation
import Tabletop.Proofs.Token.Tokenisation

/-!
# Operands where they stand

Behind the tokens that have been read either an operand begins or something that follows one, and the last of
these tokens decides which (`Pending.operand_eq_none_iff`).  Tokens that bind as tightly as an operand are one
for all that follows them: reading goes on as it does behind a single operand (`Pending.Consumes.readRest_eq`).

A text can be such an operand at any place, `Expr.WrittenAs`.  It still is one between parentheses, by itself
it is a script, and between braces it is a template.
-/

namespace Tabletop

open Text

/-! ## Where an operand begins -/

namespace Pending

theorem isSome_operand_of_readInteger {p q : Pending} {t : Token} (h : p.readInteger t = .ok q) :
    q.operand.isSome := by
  unfold readInteger at h
  split at h
  · cases h
  · split at h
    · cases h
      rfl
    · split at h <;> cases h
      rfl

/-- Where an operand has to begin, one has been read if the token ends one. -/
theorem isSome_operand_of_readOperand {p q : Pending} {t : Token} (hp : p.operand = none)
    (h : p.readOperand (.ofToken t) = .ok q) : q.operand.isSome = t.kind.endsOperand := by
  obtain ⟨before, openings, links, operand⟩ := p
  obtain ⟨kind, text, start⟩ := t
  cases hp
  cases kind with
  | integer => exact isSome_operand_of_readInteger h
  | dice =>
    simp only [readOperand, Word.ofToken] at h
    split at h <;> cases h
    rfl
  | template =>
    change (Word.ofToken _).segments >>= _ = _ at h
    cases hsegments : (Word.ofToken ⟨.template, text, start⟩).segments with
    | error e =>
      rw [hsegments] at h
      cases h
    | ok segments =>
      rw [hsegments] at h
      cases h
      rfl
  | identifier | string | leftParen | plus | minus | bang =>
    cases h
    rfl
  | _ => cases h

theorem isSome_operand_of_readEnd {p q : Pending} {e : Expr} {t : Token} (h : p.readEnd e t = .ok q) :
    q.operand.isSome = t.kind.endsOperand := by
  unfold readEnd at h
  split at h
  · split at h
    · rename_i hkind
      cases h
      rw [hkind]
      rfl
    · cases h
  · split at h
    · rename_i hkind
      rw [hkind]
      split at h <;> cases h <;> rfl
    · cases h

theorem isSome_operand_of_readConnective {p q : Pending} {e : Expr} {t : Token}
    (h : p.readConnective e t = .ok q) : q.operand.isSome = t.kind.endsOperand := by
  unfold readConnective at h
  split at h
  · rename_i op hop
    cases h
    cases hkind : t.kind <;> rw [hkind] at hop <;> first | rfl | cases hop
  · split at h
    · rename_i hkind
      cases h
      rw [hkind]
      rfl
    · rename_i hkind
      split at h <;> cases h
      rw [hkind]
      rfl
    · exact isSome_operand_of_readEnd h

theorem isSome_operand_of_read {p q : Pending} {t : Token} (h : p.read (.ofToken t) = .ok q) :
    q.operand.isSome = t.kind.endsOperand := by
  unfold read at h
  split at h
  · rename_i hp
    exact isSome_operand_of_readOperand hp h
  · exact isSome_operand_of_readConnective h

theorem exists_run_of_run_append {p r : Pending} {ts us : List Token} (h : p.run (ts ++ us) = .ok r) :
    ∃ q, p.run ts = .ok q ∧ q.run us = .ok r := by
  cases hrun : p.run ts with
  | error e =>
    unfold run at h hrun
    rw [List.map_append, List.foldlM_append, hrun] at h
    cases h
  | ok q =>
    rw [run_append us hrun] at h
    exact ⟨q, rfl, h⟩

theorem run_singleton (p : Pending) (t : Token) : p.run [t] = p.read (.ofToken t) := by
  rw [run, List.map_singleton, List.foldlM_cons]
  exact bind_pure _

/-- The last token that has been read tells whether an operand has to begin. -/
theorem operand_eq_none_iff {ts : List Token} {p : Pending} (h : start.run ts = .ok p) :
    p.operand = none ↔ BeginsOperand ts := by
  rcases List.eq_nil_or_concat' ts with rfl | ⟨ts, t, rfl⟩
  · cases h
    exact iff_of_true rfl beginsOperand_nil
  · obtain ⟨q, -, hlast⟩ := exists_run_of_run_append h
    rw [run_singleton] at hlast
    rw [beginsOperand_concat, ← isSome_operand_of_read hlast]
    simp

/-! ## Reading on behind an operand -/

/-- Reads the tokens that are left of a script. -/
def readRest (p : Pending) (ts : List Token) (stop : Nat) : Except SyntaxError Script :=
  p.run ts >>= fun q => q.finish stop

theorem readRest_append {p q : Pending} {ts : List Token} (h : p.run ts = .ok q) (us : List Token)
    (stop : Nat) : p.readRest (ts ++ us) stop = q.readRest us stop := by
  rw [readRest, run_append us h, readRest]

theorem readRest_cons {p q : Pending} {t : Token} (h : p.read (.ofToken t) = .ok q) (ts : List Token)
    (stop : Nat) : p.readRest (t :: ts) stop = q.readRest ts stop := by
  rw [readRest, run_cons ts h, readRest]

theorem readRest_of_error {p : Pending} {t : Token} {e : SyntaxError}
    (h : p.read (.ofToken t) = .error e) (ts : List Token) (stop : Nat) :
    p.readRest (t :: ts) stop = .error e := by
  rw [readRest, run, List.map_cons, List.foldlM_cons, h]
  rfl

end Pending

namespace Link

/-- What no connective can keep apart from its operand is a sign. -/
theorem binds_of_binds_six {link : Link} (h : link.binds 6) (tier : Nat) : link.binds tier := by
  cases link with
  | unary op => rfl
  | operand left op =>
    have hle : 6 ≤ op.tier := of_decide_eq_true h
    have hlt := op.tier_lt
    omega
  | alternative condition consequent => cases h
  | assignment name => cases h

theorem settle_append_of_binds {inner links : List Link} (tier : Nat) (e : Expr)
    (h : ∀ link ∈ inner, link.binds 6) :
    settle tier (inner ++ links) e = settle tier links (close inner e) := by
  induction inner generalizing e with
  | nil => rfl
  | cons link inner ih =>
    obtain ⟨hlink, hinner⟩ := List.forall_mem_cons.1 h
    rw [List.cons_append, settle, if_pos (binds_of_binds_six hlink tier), ih _ hinner]
    rfl

end Link

namespace Pending

/-- What follows an operand finds the signs in front of it complete. -/
theorem readConnective_append {before : Option Script} {openings : List (Opening × List Link)}
    {inner links : List Link} (r : Expr) (h : ∀ link ∈ inner, link.binds 6) (t : Token) :
    readConnective ⟨before, openings, inner ++ links, some r⟩ r t =
      readConnective ⟨before, openings, links, some (Link.close inner r)⟩ (Link.close inner r) t := by
  unfold readConnective
  simp only [Link.settle_append_of_binds _ r h, Link.close_append]
  rfl

/-- Behind tokens that bind as tightly as an operand, reading goes on as behind one. -/
theorem Consumes.readRest_eq {ts : List Token} {e : Expr} (h : Consumes ts 6 e) {p : Pending}
    (hp : p.operand = none) (after : List Token) (stop : Nat) :
    p.readRest (ts ++ after) stop = readRest { p with operand := some e } after stop := by
  obtain ⟨before, openings, links, operand⟩ := p
  cases hp
  obtain ⟨inner, r, hrun, hclose, hinner⟩ := h before openings links fun hlt => by omega
  have hbinds := hinner (by omega)
  rw [readRest_append hrun, ← hclose]
  cases after with
  | nil =>
    show finish _ stop = finish _ stop
    unfold finish
    cases openings with
    | nil =>
      simp only [Link.close_append]
    | cons opening openings => rfl
  | cons t after =>
    have hread : read ⟨before, openings, inner ++ links, some r⟩ (.ofToken t) =
        read ⟨before, openings, links, some (Link.close inner r)⟩ (.ofToken t) :=
      readConnective_append r hbinds t
    unfold readRest run
    rw [List.map_cons, List.foldlM_cons, List.foldlM_cons, hread]

end Pending

/-- A script is read on from the tokens that have been read. -/
theorem Script.read_eq_readRest {start : Nat} {source : List Char} {before after : List Token}
    {p : Pending} (hscan : Token.scan start source = before ++ after)
    (hbefore : Pending.start.run before = .ok p) :
    read start source = p.readRest after (start + width source) := by
  rw [read_eq, hscan]
  exact Pending.readRest_append hbefore after _

/-! ## Texts that are operands -/

namespace Token

/-- A minus is a token, whatever follows. -/
theorem scans_minus {start : Nat} {cs : List Char} {ts : List Token} (h : Scans (start + 1) cs ts) :
    Scans start ('-' :: cs) ({ kind := .minus, text := ['-'], start } :: ts) := by
  have hlongest : TokenKind.longest? ('-' :: cs) = some (.minus, 1) := rfl
  exact .token rfl (by decide) (munches_of_longest?_eq_some hlongest).1 h

/-- So is an opening parenthesis, -/
theorem scans_leftParen {start : Nat} {cs : List Char} {ts : List Token}
    (h : Scans (start + 1) cs ts) :
    Scans start ('(' :: cs) ({ kind := .leftParen, text := ['('], start } :: ts) := by
  have hlongest : TokenKind.longest? ('(' :: cs) = some (.leftParen, 1) := rfl
  exact .token rfl (by decide) (munches_of_longest?_eq_some hlongest).1 h

/-- and a closing one, which separates tokens as well. -/
theorem scans_rightParen (start : Nat) :
    Scans start [')'] [{ kind := .rightParen, text := [')'], start }] := by
  have hlongest : TokenKind.longest? [')'] = some (.rightParen, 1) := rfl
  exact .token rfl (by decide) (munches_of_longest?_eq_some hlongest).1 .nil

end Token

/-- Wherever the text stands, its tokens are an operand that is `e`. -/
def Expr.WrittenAs (e : Expr) (cs : List Char) : Prop :=
  ∀ start, ∃ ts, Token.Scans start cs ts ∧ (∀ t ∈ ts, t.kind.IsProper) ∧ Pending.Consumes ts 6 e

namespace Expr.WrittenAs

variable {e : Expr} {cs : List Char}

theorem paren (h : e.WrittenAs cs) : (Expr.paren e).WrittenAs ('(' :: cs ++ [')']) := by
  intro start
  obtain ⟨ts, hscans, hproper, hconsumes⟩ := h (start + 1)
  have hinside := hscans.append hproper (by decide) (Token.scans_rightParen _)
  refine ⟨_, Token.scans_leftParen hinside, ?_, ?_⟩
  · have hleft : TokenKind.leftParen.IsProper := by decide
    have hright : TokenKind.rightParen.IsProper := by decide
    exact List.forall_mem_cons.2
      ⟨hleft, List.forall_mem_append.2 ⟨hproper, List.forall_mem_singleton.2 hright⟩⟩
  · have hexpr : Pending.Consumes ts 0 e :=
      hconsumes.loosen.loosen.loosen.loosen.loosen.loosen
    exact .paren rfl rfl hexpr

/-- By itself the text is a script. -/
theorem read (h : e.WrittenAs cs) (start : Nat) : Script.read start cs = .ok (.single e) := by
  obtain ⟨ts, hscans, -, hconsumes⟩ := h start
  have hbegins : Pending.start.operand = none := rfl
  rw [Script.read_eq, hscans.scan_eq]
  show Pending.start.readRest ts _ = _
  rw [← List.append_nil ts, hconsumes.readRest_eq hbegins]
  rfl

end Expr.WrittenAs

end Tabletop
