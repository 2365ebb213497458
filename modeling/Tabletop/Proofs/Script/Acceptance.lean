import Tabletop.Proofs.Script.Soundness

/-!
# Which texts are scripts

Whether a text is a script depends on the kinds of its tokens, which the grammar has to derive, and on each
token by itself: an integer must not be too large, a dice term has to be one, and the scripts inside a
template have to be scripts.  Of the tokens before it only an integer takes notice, since the least number
has a numeral that is too large without its sign.
-/

namespace Tabletop

/-! ## Conditions on single tokens -/

/-- The kinds with which an operand ends. -/
def TokenKind.endsOperand : TokenKind → Bool
  | integer | dice | identifier | string | template | rightParen => true
  | _ => false

/-- Behind the tokens an operand begins. -/
def BeginsOperand (ts : List Token) : Prop :=
  ∀ t ∈ ts.getLast?, ¬t.kind.endsOperand

/-- The last of the tokens is a minus that stands before an operand, and not between two. -/
def EndsWithSign (ts : List Token) : Prop :=
  ∃ before minus, ts = before ++ [minus] ∧ minus.kind = .minus ∧ BeginsOperand before

/-- What a token has to be by itself, behind the tokens `before`. -/
def Token.Accepted (before : List Token) (t : Token) : Prop :=
  match t.kind with
  | .integer => t.value < Number.bound ∨ t.value = Number.bound ∧ EndsWithSign before
  | .dice => ∃ term, DiceTerm.read t.text = .ok term
  | .template =>
    ∃ pieces, Piece.Splits (t.start + 1) t.body pieces ∧
      ∀ start inner, .code start inner ∈ pieces → ∃ s, Script.read start inner = .ok s
  | _ => True

/-- Behind the tokens `before`, each of the tokens is accepted where it stands. -/
def AllAccepted (before ts : List Token) : Prop :=
  ∀ ls t rs, ts = ls ++ t :: rs → t.Accepted (before ++ ls)

theorem beginsOperand_nil : BeginsOperand [] := by
  intro t ht
  cases ht

theorem not_endsWithSign_nil : ¬EndsWithSign [] := by
  rintro ⟨before, minus, hsplit, _⟩
  cases before <;> cases hsplit

theorem beginsOperand_concat {ts : List Token} {t : Token} :
    BeginsOperand (ts ++ [t]) ↔ ¬t.kind.endsOperand := by
  rw [BeginsOperand, List.getLast?_concat]
  exact ⟨fun h => h t rfl, fun h u hu => Option.some.inj hu ▸ h⟩

theorem endsWithSign_concat {ts : List Token} {t : Token} :
    EndsWithSign (ts ++ [t]) ↔ t.kind = .minus ∧ BeginsOperand ts := by
  constructor
  · rintro ⟨before, minus, hsplit, hminus, hbefore⟩
    obtain ⟨rfl, hlast⟩ := List.append_inj' hsplit rfl
    obtain rfl := List.singleton_inj.1 hlast
    exact ⟨hminus, hbefore⟩
  · rintro ⟨hminus, hbefore⟩
    exact ⟨ts, t, rfl, hminus, hbefore⟩

theorem allAccepted_singleton {before : List Token} {t : Token} :
    AllAccepted before [t] ↔ t.Accepted before := by
  constructor
  · intro h
    have ht := h [] t [] rfl
    rwa [List.append_nil] at ht
  · intro h ls u rs hsplit
    cases ls with
    | nil =>
      obtain ⟨rfl, _⟩ := List.cons.inj hsplit
      rwa [List.append_nil]
    | cons v ls => simp at hsplit

theorem allAccepted_append {before ls rs : List Token} :
    AllAccepted before (ls ++ rs) ↔ AllAccepted before ls ∧ AllAccepted (before ++ ls) rs := by
  constructor
  · intro h
    constructor
    · rintro ls' t rs' rfl
      exact h ls' t (rs' ++ rs) (by simp)
    · rintro ls' t rs' rfl
      rw [List.append_assoc]
      exact h (ls ++ ls') t rs' (by simp)
  · rintro ⟨hls, hrs⟩ ls' t rs' hsplit
    rcases List.append_eq_append_iff.1 hsplit with ⟨us, rfl, hrest⟩ | ⟨us, rfl, hrest⟩
    · rw [← List.append_assoc]
      exact hrs us t rs' hrest
    · cases us with
      | nil =>
        have ht := hrs [] t rs' hrest.symm
        rwa [List.append_nil, List.append_nil] at ht
      | cons u us =>
        obtain ⟨rfl, rfl⟩ := List.cons.inj hrest
        exact hls ls' t us rfl

theorem allAccepted_cons {before ts : List Token} {t : Token} :
    AllAccepted before (t :: ts) ↔ t.Accepted before ∧ AllAccepted (before ++ [t]) ts := by
  rw [← List.singleton_append, allAccepted_append, allAccepted_singleton]

/-- A token that ends no operand is accepted everywhere. -/
theorem Token.accepted_of_not_endsOperand {before : List Token} {t : Token}
    (h : ¬t.kind.endsOperand) : t.Accepted before := by
  unfold Token.Accepted
  split
  all_goals first | trivial | (rename_i hkind; rw [hkind] at h; exact absurd rfl h)

/-- The tokens behind one that ends no operand. -/
theorem allAccepted_cons_of_not_endsOperand {before ts : List Token} {t : Token}
    (ht : ¬t.kind.endsOperand) (h : BeginsOperand (before ++ [t]) → AllAccepted (before ++ [t]) ts) :
    AllAccepted before (t :: ts) :=
  allAccepted_cons.2 ⟨Token.accepted_of_not_endsOperand ht, h (beginsOperand_concat.2 ht)⟩

/-! ## A tree meets all conditions -/

/-- An operator between operands ends none. -/
theorem Phrase.not_endsOperand {phrase : Phrase} {kind : TokenKind} (h : kind ∈ phrase.operators) :
    ¬kind.endsOperand := by
  have hall : ∀ kind ∈ phrase.operators, ¬kind.endsOperand := by
    cases phrase <;> decide
  exact hall kind h

theorem TokenKind.not_endsOperand {kind : TokenKind} {op : UnaryOperator}
    (h : kind.unary? = some op) : ¬kind.endsOperand := by
  cases kind <;> cases h <;> decide

theorem TokenKind.mem_signs {kind : TokenKind} {op : UnaryOperator} (h : kind.unary? = some op) :
    kind ∈ [TokenKind.minus, .plus, .bang] := by
  cases kind <;> cases h <;> decide

/-- The tokens of a tree are derived by the grammar. -/
theorem Expr.Reads.derives {phrase : Phrase} {ts : List Token} {e : Expr}
    (h : Expr.Reads phrase ts e) : Derives phrase (ts.map Token.kind) :=
  match h with
  | .assignment hname hequal h => by
    rw [List.map_cons, List.map_cons, hname, hequal]
    exact .assignment h.derives
  | .expr h => .expr h.derives
  | .conditional hquestion hcolon hc ht he => by
    simp only [List.map_append, List.map_cons, hquestion, hcolon]
    exact .conditional hc.derives ht.derives he.derives
  | .ternary h => .ternary h.derives
  | .chain hsign _ hl hr => by
    rw [List.map_append, List.map_cons]
    exact .chain hsign hl.derives hr.derives
  | .part hphrase h => .part hphrase h.derives
  | .sign hop h => .sign (TokenKind.mem_signs hop) h.derives
  | .least hminus ht _ => by
    rw [List.map_cons, List.map_singleton, hminus, ht]
    exact .sign (by decide) (.unary (.literal (by decide)))
  | .unary h => .unary h.derives
  | .integer ht _ => .literal (by rw [ht]; decide)
  | .dice ht _ => .literal (by rw [ht]; decide)
  | .name ht => .literal (by rw [ht]; decide)
  | .string ht => .literal (by rw [ht]; decide)
  | .template ht _ _ => .literal (by rw [ht]; decide)
  | .paren hleft hright h => by
    rw [List.map_append, List.map_cons, List.map_singleton, hleft, hright]
    exact .paren h.derives

theorem Script.Reads.derives {phrase : Phrase} {ts : List Token} {s : Script}
    (h : Script.Reads phrase ts s) : Derives phrase (ts.map Token.kind) :=
  match h with
  | .program h => .program h.derives
  | .trailing hsemicolon h => by
    rw [List.map_append, List.map_singleton, hsemicolon]
    exact .trailing h.derives
  | .item h => .item h.derives
  | .sequence hsemicolon hl hr => by
    rw [List.map_append, List.map_cons, hsemicolon]
    exact .sequence hl.derives hr.derives

/-- The scripts inside a template that stands for segments are read. -/
theorem Segment.Reads.read_code {pieces : List Piece} {segments : List Segment} {start : Nat}
    {inner : List Char} (h : Segment.Reads pieces segments) (hcode : .code start inner ∈ pieces) :
    ∃ s, Script.read start inner = .ok s :=
  match h with
  | .nil => nomatch hcode
  | .text h => h.read_code (by simpa using hcode)
  | .code hscript h => by
    rcases List.mem_cons.1 hcode with heq | hcode
    · cases heq
      exact ⟨_, Script.read_eq_ok_iff.2 hscript⟩
    · exact h.read_code hcode

/-- The tokens of a tree are accepted wherever an operand may begin. -/
theorem Expr.Reads.allAccepted {phrase : Phrase} {before ts : List Token} {e : Expr}
    (h : Expr.Reads phrase ts e) (hbefore : BeginsOperand before) : AllAccepted before ts :=
  match h with
  | .assignment hname hequal h => by
    rw [allAccepted_cons, Token.Accepted, hname]
    exact ⟨trivial, allAccepted_cons_of_not_endsOperand (by rw [hequal]; decide) h.allAccepted⟩
  | .expr h => h.allAccepted hbefore
  | .conditional hquestion hcolon hc ht he => by
    rw [allAccepted_append, allAccepted_append]
    exact ⟨⟨hc.allAccepted hbefore,
      allAccepted_cons_of_not_endsOperand (by rw [hquestion]; decide) ht.allAccepted⟩,
      allAccepted_cons_of_not_endsOperand (by rw [hcolon]; decide) he.allAccepted⟩
  | .ternary h => h.allAccepted hbefore
  | .chain hsign _ hl hr => allAccepted_append.2 ⟨hl.allAccepted hbefore,
      allAccepted_cons_of_not_endsOperand (Phrase.not_endsOperand hsign) hr.allAccepted⟩
  | .part _ h => h.allAccepted hbefore
  | .sign hop h =>
    allAccepted_cons_of_not_endsOperand (TokenKind.not_endsOperand hop) h.allAccepted
  | .least hminus ht hvalue => by
    refine allAccepted_cons_of_not_endsOperand (by rw [hminus]; decide) fun _ => ?_
    rw [allAccepted_singleton, Token.Accepted, ht]
    exact .inr ⟨hvalue, endsWithSign_concat.2 ⟨hminus, hbefore⟩⟩
  | .unary h => h.allAccepted hbefore
  | .integer ht hvalue => by
    rw [allAccepted_singleton, Token.Accepted, ht]
    exact .inl hvalue
  | .dice ht hterm => by
    rw [allAccepted_singleton, Token.Accepted, ht]
    exact ⟨_, hterm⟩
  | .name ht => by
    rw [allAccepted_singleton, Token.Accepted, ht]
    trivial
  | .string ht => by
    rw [allAccepted_singleton, Token.Accepted, ht]
    trivial
  | .template ht hsplits h => by
    rw [allAccepted_singleton, Token.Accepted, ht]
    exact ⟨_, hsplits, fun _ _ hcode => h.read_code hcode⟩
  | .paren hleft hright h => by
    rw [List.cons_append]
    refine allAccepted_cons_of_not_endsOperand (by rw [hleft]; decide) fun hinside => ?_
    rw [allAccepted_append, allAccepted_singleton, Token.Accepted, hright]
    exact ⟨h.allAccepted hinside, trivial⟩

theorem Script.Reads.allAccepted {phrase : Phrase} {ts : List Token} {s : Script}
    (h : Script.Reads phrase ts s) : AllAccepted [] ts :=
  match h with
  | .program h => h.allAccepted
  | .trailing hsemicolon h => by
    rw [allAccepted_append, allAccepted_singleton, Token.Accepted, hsemicolon]
    exact ⟨h.allAccepted, trivial⟩
  | .item h => h.allAccepted beginsOperand_nil
  | .sequence hsemicolon hl hr => allAccepted_append.2 ⟨hl.allAccepted,
      allAccepted_cons_of_not_endsOperand (by rw [hsemicolon]; decide) hr.allAccepted⟩

/-! ## Tokens that meet all conditions have a tree -/

theorem Phrase.isSome_ofKind? {phrase : Phrase} {kind : TokenKind} (h : kind ∈ phrase.operators) :
    ∃ op, Connective.ofKind? kind = some op := by
  have hall : ∀ kind ∈ phrase.operators, (Connective.ofKind? kind).isSome := by
    cases phrase <;> decide
  exact Option.isSome_iff_exists.1 (hall kind h)

theorem TokenKind.exists_unary? {kind : TokenKind} (h : kind ∈ [TokenKind.minus, .plus, .bang]) :
    ∃ op, kind.unary? = some op := by
  have hall : ∀ kind ∈ [TokenKind.minus, .plus, .bang], kind.unary?.isSome := by decide
  exact Option.isSome_iff_exists.1 (hall kind h)

/-- The phrases that stand for one expression. -/
def Phrase.IsExpr (phrase : Phrase) : Prop :=
  phrase ≠ .program ∧ phrase ≠ .sequence

theorem Phrase.isExpr_part {phrase : Phrase} (h : phrase.operators ≠ []) : phrase.part.IsExpr := by
  cases phrase <;> first | exact absurd rfl h | exact ⟨nofun, nofun⟩

/-- The last of the kinds ends an operand. -/
def EndsOperand (ks : List TokenKind) : Prop :=
  ∃ ls k, ks = ls ++ [k] ∧ k.endsOperand

theorem EndsOperand.append {ks : List TokenKind} (h : EndsOperand ks) (js : List TokenKind) :
    EndsOperand (js ++ ks) := by
  obtain ⟨ls, k, rfl, hk⟩ := h
  exact ⟨js ++ ls, k, (List.append_assoc js ls [k]).symm, hk⟩

/-- Behind an operand none begins. -/
theorem EndsOperand.not_beginsOperand {ts : List Token} (h : EndsOperand (ts.map Token.kind))
    (before : List Token) : ¬BeginsOperand (before ++ ts) := by
  obtain ⟨ls, k, hsplit, hk⟩ := h
  obtain ⟨us, vs, rfl, rfl, hvs⟩ := List.map_eq_append_iff.1 hsplit
  obtain ⟨t, rfl, rfl⟩ := List.map_eq_singleton_iff.1 hvs
  rw [← List.append_assoc, beginsOperand_concat]
  exact not_not_intro hk

theorem Derives.endsOperand {phrase : Phrase} {ks : List TokenKind} (h : Derives phrase ks)
    (hphrase : phrase.IsExpr) : EndsOperand ks := by
  induction h with
  | program | trailing => exact absurd rfl hphrase.1
  | item | sequence => exact absurd rfl hphrase.2
  | assignment _ ih => exact (ih hphrase).append [_, _]
  | expr _ ih => exact ih ⟨nofun, nofun⟩
  | conditional _ _ _ _ _ ih => exact (ih ⟨nofun, nofun⟩).append [_] |>.append _
  | ternary _ ih => exact ih ⟨nofun, nofun⟩
  | chain hkind _ _ _ ih =>
    exact (ih (Phrase.isExpr_part (List.ne_nil_of_mem hkind))).append [_] |>.append _
  | part hoperators _ ih => exact ih (Phrase.isExpr_part hoperators)
  | sign _ _ ih => exact (ih hphrase).append [_]
  | unary _ ih => exact ih ⟨nofun, nofun⟩
  | @literal kind hkind =>
    have hall : ∀ kind ∈ [TokenKind.integer, .dice, .identifier, .string, .template],
        kind.endsOperand := by decide
    exact ⟨[], kind, rfl, hall kind hkind⟩
  | paren => exact ⟨_, .rightParen, rfl, rfl⟩

/-- A template whose scripts are read stands for segments. -/
theorem Piece.Splits.reads {start : Nat} {body : List Char} {pieces : List Piece}
    (h : Piece.Splits start body pieces)
    (hscripts : ∀ start inner, .code start inner ∈ pieces → ∃ s, Script.read start inner = .ok s) :
    ∃ segments, Segment.Reads pieces segments := by
  induction h with
  | nil => exact ⟨[], .nil⟩
  | text _ _ _ _ ih =>
    obtain ⟨segments, hsegments⟩ := ih fun start inner hcode =>
      hscripts start inner (List.mem_cons_of_mem _ hcode)
    exact ⟨_, .text hsegments⟩
  | code _ _ _ ih =>
    obtain ⟨segments, hsegments⟩ := ih fun start inner hcode =>
      hscripts start inner (List.mem_cons_of_mem _ hcode)
    obtain ⟨s, hs⟩ := hscripts _ _ List.mem_cons_self
    exact ⟨_, .code (Script.read_eq_ok_iff.1 hs) hsegments⟩

/-- The numeral of the least number, behind its sign. -/
def IsLeast (before ts : List Token) : Prop :=
  EndsWithSign before ∧ ∃ t : Token, ts = [t] ∧ t.kind = .integer ∧ t.value = Number.bound

/-- One token that the grammar derives as an operand. -/
theorem Token.Accepted.reads {before : List Token} {t : Token} (h : t.Accepted before)
    (hkind : t.kind ∈ [TokenKind.integer, .dice, .identifier, .string, .template]) :
    (∃ e, Expr.Reads .atom [t] e) ∨ IsLeast before [t] := by
  unfold Token.Accepted at h
  split at h
  · rename_i ht
    rcases h with hvalue | ⟨hvalue, hsign⟩
    · exact .inl ⟨_, .integer ht hvalue⟩
    · exact .inr ⟨hsign, t, rfl, ht, hvalue⟩
  · rename_i ht
    obtain ⟨term, hterm⟩ := h
    exact .inl ⟨_, .dice ht hterm⟩
  · rename_i ht
    obtain ⟨pieces, hsplits, hscripts⟩ := h
    obtain ⟨segments, hsegments⟩ := hsplits.reads hscripts
    exact .inl ⟨_, .template ht hsplits hsegments⟩
  · rename_i hinteger hdice htemplate
    simp only [List.mem_cons, List.not_mem_nil, or_false] at hkind
    rcases hkind with ht | ht | ht | ht | ht
    · exact absurd ht hinteger
    · exact absurd ht hdice
    · exact .inl ⟨_, .name ht⟩
    · exact .inl ⟨_, .string ht⟩
    · exact absurd ht htemplate

/-- Accepted tokens of these kinds have a tree as the phrase.  A phrase looser than a sign does not follow
one, so it cannot be mistaken for the numeral of the least number. -/
def HasTree (phrase : Phrase) (ks : List TokenKind) : Prop :=
  ∀ before ts : List Token, ts.map Token.kind = ks → BeginsOperand before →
    (phrase.tier < 6 → ¬EndsWithSign before) → AllAccepted before ts →
      (∃ e, Expr.Reads phrase ts e) ∨ IsLeast before ts

theorem HasTree.of_not_endsWithSign {phrase : Phrase} {before ts : List Token}
    (h : HasTree phrase (ts.map Token.kind)) (hbegins : BeginsOperand before)
    (hsign : ¬EndsWithSign before) (haccepted : AllAccepted before ts) :
    ∃ e, Expr.Reads phrase ts e := by
  rcases h before ts rfl hbegins (fun _ => hsign) haccepted with htree | hleast
  · exact htree
  · exact absurd hleast.1 hsign

/-- Behind a token that is no sign. -/
theorem HasTree.behind {phrase : Phrase} {before ts : List Token} {t : Token}
    (h : HasTree phrase (ts.map Token.kind)) (ht : ¬t.kind.endsOperand)
    (hminus : t.kind = .minus → ¬BeginsOperand before) (haccepted : AllAccepted before (t :: ts)) :
    ∃ e, Expr.Reads phrase ts e := by
  refine h.of_not_endsWithSign (beginsOperand_concat.2 ht) ?_ (allAccepted_cons.1 haccepted).2
  rw [endsWithSign_concat]
  rintro ⟨hkind, hbegins⟩
  exact hminus hkind hbegins

/-- The induction is on the derivation. -/
theorem Derives.hasTree {phrase : Phrase} {ks : List TokenKind} (h : Derives phrase ks)
    (hphrase : phrase.IsExpr) : HasTree phrase ks := by
  induction h with
  | program | trailing => exact absurd rfl hphrase.1
  | item | sequence => exact absurd rfl hphrase.2
  | assignment _ ih =>
    intro before ts hts hbegins hsign haccepted
    obtain ⟨name, ts, rfl, hname, hts⟩ := List.map_eq_cons_iff.1 hts
    obtain ⟨equal, ts, rfl, hequal, rfl⟩ := List.map_eq_cons_iff.1 hts
    obtain ⟨e, he⟩ := (ih hphrase).behind (by rw [hequal]; decide) (by rw [hequal]; exact nofun)
      (allAccepted_cons.1 haccepted).2
    exact .inl ⟨_, .assignment hname hequal he⟩
  | expr _ ih =>
    intro before ts hts hbegins hsign haccepted
    rcases ih ⟨nofun, nofun⟩ before ts hts hbegins hsign haccepted with ⟨e, he⟩ | hleast
    · exact .inl ⟨e, .expr he⟩
    · exact .inr hleast
  | conditional _ _ _ ihc iht ihe =>
    intro before ts hts hbegins hsign haccepted
    obtain ⟨ls, es, rfl, hls, hes⟩ := List.map_eq_append_iff.1 hts
    obtain ⟨cs, ts, rfl, rfl, hmiddle⟩ := List.map_eq_append_iff.1 hls
    obtain ⟨question, ts, rfl, hquestion, rfl⟩ := List.map_eq_cons_iff.1 hmiddle
    obtain ⟨colon, es, rfl, hcolon, rfl⟩ := List.map_eq_cons_iff.1 hes
    obtain ⟨hleft, hes⟩ := allAccepted_append.1 haccepted
    obtain ⟨hcs, hts⟩ := allAccepted_append.1 hleft
    obtain ⟨c, hc⟩ := (ihc ⟨nofun, nofun⟩).of_not_endsWithSign hbegins (hsign (by decide)) hcs
    obtain ⟨t, ht⟩ := (iht ⟨nofun, nofun⟩).behind (by rw [hquestion]; decide)
      (by rw [hquestion]; exact nofun) hts
    obtain ⟨e, he⟩ := (ihe ⟨nofun, nofun⟩).behind (by rw [hcolon]; decide)
      (by rw [hcolon]; exact nofun) hes
    exact .inl ⟨_, .conditional hquestion hcolon hc ht he⟩
  | ternary _ ih =>
    intro before ts hts hbegins hsign haccepted
    obtain ⟨e, he⟩ | hleast := ih ⟨nofun, nofun⟩ before ts hts hbegins (fun _ => hsign (by decide))
      haccepted
    · exact .inl ⟨e, .ternary he⟩
    · exact .inr hleast
  | chain hkind hl _ ihl ihr =>
    intro before ts hts hbegins hsign haccepted
    obtain ⟨_, _, htier⟩ := Phrase.tier_part (List.ne_nil_of_mem hkind)
    obtain ⟨ls, rs, rfl, rfl, hrs⟩ := List.map_eq_append_iff.1 hts
    obtain ⟨sign, rs, rfl, rfl, rfl⟩ := List.map_eq_cons_iff.1 hrs
    obtain ⟨hls, hrs⟩ := allAccepted_append.1 haccepted
    obtain ⟨l, hl'⟩ := (ihl hphrase).of_not_endsWithSign hbegins (hsign htier) hls
    -- what stands before the operator is an operand, so a minus here is no sign
    have hminus := (hl.endsOperand hphrase).not_beginsOperand before
    obtain ⟨r, hr⟩ := (ihr (Phrase.isExpr_part (List.ne_nil_of_mem hkind))).behind
      (Phrase.not_endsOperand hkind) (fun _ => hminus) hrs
    obtain ⟨op, hop⟩ := Phrase.isSome_ofKind? hkind
    exact .inl ⟨_, .chain hkind hop hl' hr⟩
  | part hoperators _ ih =>
    intro before ts hts hbegins hsign haccepted
    obtain ⟨_, _, htier⟩ := Phrase.tier_part hoperators
    obtain ⟨e, he⟩ | hleast := ih (Phrase.isExpr_part hoperators) before ts hts hbegins
      (fun _ => hsign htier) haccepted
    · exact .inl ⟨e, .part hoperators he⟩
    · exact .inr hleast
  | sign hkind _ ih =>
    intro before ts hts hbegins hsign haccepted
    obtain ⟨sign, ts, rfl, rfl, hrest⟩ := List.map_eq_cons_iff.1 hts
    obtain ⟨op, hop⟩ := TokenKind.exists_unary? hkind
    have hinside : BeginsOperand (before ++ [sign]) :=
      beginsOperand_concat.2 (TokenKind.not_endsOperand hop)
    obtain ⟨e, he⟩ | ⟨hleast, t, rfl, ht, hvalue⟩ := ih hphrase (before ++ [sign]) ts hrest hinside
      (fun htier => absurd htier (by decide)) (allAccepted_cons.1 haccepted).2
    · exact .inl ⟨_, .sign hop he⟩
    · exact .inl ⟨_, .least (endsWithSign_concat.1 hleast).1 ht hvalue⟩
  | unary _ ih =>
    intro before ts hts hbegins hsign haccepted
    obtain ⟨e, he⟩ | hleast := ih ⟨nofun, nofun⟩ before ts hts hbegins hsign haccepted
    · exact .inl ⟨e, .unary he⟩
    · exact .inr hleast
  | literal hkind =>
    intro before ts hts _ _ haccepted
    obtain ⟨t, rfl, rfl⟩ := List.map_eq_singleton_iff.1 hts
    exact (allAccepted_singleton.1 haccepted).reads hkind
  | paren _ ih =>
    intro before ts hts hbegins hsign haccepted
    obtain ⟨left, ts, rfl, hleft, hts⟩ := List.map_eq_cons_iff.1 hts
    obtain ⟨ts, rights, rfl, rfl, hrights⟩ := List.map_eq_append_iff.1 hts
    obtain ⟨right, rfl, hright⟩ := List.map_eq_singleton_iff.1 hrights
    rw [← List.cons_append] at haccepted
    obtain ⟨e, he⟩ := (ih ⟨nofun, nofun⟩).behind (by rw [hleft]; decide)
      (by rw [hleft]; exact nofun) (allAccepted_append.1 haccepted).1
    exact .inl ⟨_, .paren hleft hright he⟩

/-- A sequence of expressions, each behind nothing or behind a semicolon. -/
theorem Derives.readsSequence {phrase : Phrase} {ks : List TokenKind} (h : Derives phrase ks)
    (hphrase : phrase = .sequence) {ts : List Token} (hts : ts.map Token.kind = ks)
    (haccepted : AllAccepted [] ts) : ∃ s, Script.Reads .sequence ts s := by
  induction h generalizing ts with
  | item h =>
    subst hts
    obtain ⟨e, he⟩ := (h.hasTree ⟨nofun, nofun⟩).of_not_endsWithSign beginsOperand_nil
      not_endsWithSign_nil haccepted
    exact ⟨_, .item he⟩
  | sequence _ hr ihl _ =>
    obtain ⟨ls, rs, rfl, hls, hrs⟩ := List.map_eq_append_iff.1 hts
    obtain ⟨semicolon, rs, rfl, hsemicolon, rfl⟩ := List.map_eq_cons_iff.1 hrs
    obtain ⟨hleft, hright⟩ := allAccepted_append.1 haccepted
    obtain ⟨s, hs⟩ := ihl rfl hls hleft
    obtain ⟨e, he⟩ := (hr.hasTree ⟨nofun, nofun⟩).behind (by rw [hsemicolon]; decide)
      (by rw [hsemicolon]; exact nofun) hright
    exact ⟨_, .sequence hsemicolon hs he⟩
  | part hoperators => exact absurd rfl (hphrase ▸ hoperators)
  | chain hkind => exact absurd (hphrase ▸ hkind) List.not_mem_nil
  | _ => cases hphrase

theorem Derives.readsProgram {ts : List Token} (h : Derives .program (ts.map Token.kind))
    (haccepted : AllAccepted [] ts) : ∃ s, Script.Reads .program ts s := by
  generalize hts : ts.map Token.kind = ks at h
  cases h with
  | program h =>
    obtain ⟨s, hs⟩ := h.readsSequence rfl hts haccepted
    exact ⟨s, .program hs⟩
  | trailing h =>
    obtain ⟨ts, semicolons, rfl, hitems, hsemicolons⟩ := List.map_eq_append_iff.1 hts
    obtain ⟨semicolon, rfl, hsemicolon⟩ := List.map_eq_singleton_iff.1 hsemicolons
    obtain ⟨s, hs⟩ := h.readsSequence rfl hitems (allAccepted_append.1 haccepted).1
    exact ⟨s, .trailing hsemicolon hs⟩
  | part hoperators => exact absurd rfl hoperators
  | chain hkind => exact absurd hkind List.not_mem_nil

/-- Reading a text as a script succeeds exactly where the grammar derives the kinds of its tokens, every
integer fits, every dice term is one, and every template splits into texts and into scripts that are not
blank and are read in turn.  What is read is the tree that the grammar makes of the tokens, and there is no
other. -/
theorem Script.read_iff_derives (start : Nat) (source : List Char) :
    ((∃ s, Script.read start source = .ok s) ↔
      Derives .program ((Token.scan start source).map Token.kind) ∧
        AllAccepted [] (Token.scan start source)) ∧
    ∀ s, Script.read start source = .ok s →
      Script.Reads .program (Token.scan start source) s ∧
        ∀ s', Script.Reads .program (Token.scan start source) s' → s' = s := by
  refine ⟨⟨?_, ?_⟩, ?_⟩
  · rintro ⟨s, hread⟩
    have hreads := Script.read_eq_ok_iff.1 hread
    exact ⟨hreads.derives, hreads.allAccepted⟩
  · rintro ⟨hderives, haccepted⟩
    obtain ⟨s, hs⟩ := hderives.readsProgram haccepted
    exact ⟨s, Script.read_eq_ok_iff.2 hs⟩
  · intro s hread
    refine ⟨Script.read_eq_ok_iff.1 hread, fun s' hs' => ?_⟩
    have hread' := Script.read_eq_ok_iff.2 hs'
    rw [hread] at hread'
    exact (Except.ok.inj hread').symm

end Tabletop
