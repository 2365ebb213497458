import Tabletop.Proofs.Script.Grammar
import Tabletop.Proofs.Token.Scan

/-!
# What the grammar derives is read

Tokens that stand for a tree are read as that tree.  `Consumes` is what the induction needs of a phrase
inside a script: from any state in which an operand has to begin, reading its tokens adds links that
complete to the expression of the phrase, and all of them bind at least as tightly as the phrase, so that
a connective after the phrase takes the phrase as a whole.
-/

namespace Tabletop

/-! ## Tiers -/

/-- How tightly the connectives of a phrase bind; signs and operands bind tighter than all of them. -/
def Phrase.tier : Phrase → Nat
  | or => 1
  | and => 2
  | cmp => 3
  | add => 4
  | mul => 5
  | unary => 6
  | atom => 6
  | _ => 0

theorem Phrase.tier_part {phrase : Phrase} (h : phrase.operators ≠ []) :
    phrase.part.tier = phrase.tier + 1 ∧ 0 < phrase.tier ∧ phrase.tier < 6 := by
  cases phrase <;> first | exact absurd rfl h | decide

/-- An operator of a chain binds as tightly as the chain. -/
theorem Phrase.tier_operator {phrase : Phrase} {kind : TokenKind} {op : Connective}
    (hkind : kind ∈ phrase.operators) (hop : Connective.ofKind? kind = some op) :
    op.tier = phrase.tier := by
  have htier : ∀ kind ∈ phrase.operators,
      (Connective.ofKind? kind).map Connective.tier = some phrase.tier := by
    cases phrase <;> decide
  have hmap := htier kind hkind
  rw [hop] at hmap
  exact Option.some.inj hmap

theorem Connective.tier_pos (op : Connective) : 0 < op.tier := by
  rcases op with (op | op) | op <;> cases op <;> decide

theorem Connective.tier_lt (op : Connective) : op.tier < 6 := by
  rcases op with (op | op) | op <;> cases op <;> decide

namespace Link

theorem binds_mono {link : Link} {tier tier' : Nat} (h : tier ≤ tier') (hbinds : link.binds tier') :
    link.binds tier := by
  cases link with
  | unary op => rfl
  | operand left op =>
    have hop : tier' ≤ op.tier := of_decide_eq_true hbinds
    exact decide_eq_true (Nat.le_trans h hop)
  | alternative condition consequent => exact hbinds
  | assignment name => exact hbinds

theorem close_append (inner links : List Link) (e : Expr) :
    close (inner ++ links) e = close links (close inner e) :=
  List.foldl_append

/-- A token completes the links that bind, and stops at the first one that does not. -/
theorem settle_append {tier : Nat} {inner links : List Link} (e : Expr)
    (hinner : ∀ link ∈ inner, link.binds tier) (hlinks : ∀ link ∈ links.head?, ¬link.binds tier) :
    settle tier (inner ++ links) e = (links, close inner e) := by
  induction inner generalizing e with
  | nil =>
    cases links with
    | nil => rfl
    | cons link links => exact if_neg (hlinks link rfl)
  | cons link inner ih =>
    rw [List.cons_append, settle, if_pos (hinner link List.mem_cons_self)]
    exact ih _ fun other hother => hinner other (List.mem_cons_of_mem link hother)

end Link

/-! ## Reading the tokens of a phrase -/

namespace Pending

/-- Reads tokens one after the other. -/
def run (p : Pending) (ts : List Token) : Except SyntaxError Pending :=
  (ts.map Word.ofToken).foldlM read p

theorem run_cons {p q : Pending} {t : Token} (ts : List Token) (h : p.read (.ofToken t) = .ok q) :
    p.run (t :: ts) = q.run ts := by
  rw [run, List.map_cons, List.foldlM_cons, h]
  rfl

theorem run_append {p q : Pending} {ts : List Token} (us : List Token) (h : p.run ts = .ok q) :
    p.run (ts ++ us) = q.run us := by
  rw [run] at h
  rw [run, List.map_append, List.foldlM_append, h]
  rfl

/-- Where an operand has to begin, and the construct around it does not bind at the tier, the tokens are
read as links that complete to `e`. -/
def Consumes (ts : List Token) (tier : Nat) (e : Expr) : Prop :=
  ∀ before openings links, (tier < 6 → ∀ link ∈ links.head?, ¬link.binds tier) →
    ∃ inner r,
      run ⟨before, openings, links, none⟩ ts = .ok ⟨before, openings, inner ++ links, some r⟩ ∧
        Link.close inner r = e ∧ (0 < tier → ∀ link ∈ inner, link.binds tier)

theorem Consumes.loosen {ts : List Token} {tier : Nat} {e : Expr} (h : Consumes ts (tier + 1) e) :
    Consumes ts tier e := by
  intro before openings links hlinks
  obtain ⟨inner, r, hrun, hclose, hinner⟩ := h before openings links fun htier link hlink hbinds =>
    hlinks (by omega) link hlink (Link.binds_mono (by omega) hbinds)
  refine ⟨inner, r, hrun, hclose, fun _ link hlink => ?_⟩
  exact Link.binds_mono (by omega) (hinner (by omega) link hlink)

/-- A token that is an operand by itself. -/
theorem consumes_operand {t : Token} {e : Expr}
    (h : ∀ p : Pending, p.readOperand (.ofToken t) = .ok { p with operand := some e }) :
    Consumes [t] 6 e := by
  intro before openings links _
  exact ⟨[], e, run_cons [] (h _), rfl, fun _ link hlink => nomatch hlink⟩

theorem read_sign {sign : Token} {op : UnaryOperator} (hop : sign.kind.unary? = some op)
    (before : Option Script) (openings : List (Opening × List Link)) (links : List Link) :
    read ⟨before, openings, links, none⟩ (.ofToken sign) =
      .ok ⟨before, openings, .unary op :: links, none⟩ := by
  obtain ⟨kind, text, start⟩ := sign
  cases kind <;> cases hop <;> rfl

theorem Consumes.sign {sign : Token} {op : UnaryOperator} {ts : List Token} {e : Expr}
    (hop : sign.kind.unary? = some op) (h : Consumes ts 6 e) :
    Consumes (sign :: ts) 6 (.unary op e) := by
  intro before openings links _
  have hread := read_sign hop before openings links
  obtain ⟨inner, r, hrun, hclose, hinner⟩ := h before openings (.unary op :: links) (by omega)
  refine ⟨inner ++ [.unary op], r, ?_, ?_, ?_⟩
  · rw [run_cons ts hread, hrun, List.append_assoc, List.singleton_append]
  · rw [Link.close_append, hclose]
    rfl
  · intro htier link hlink
    rcases List.mem_append.1 hlink with hlink | hlink
    · exact hinner htier link hlink
    · rw [List.mem_singleton.1 hlink]
      rfl

/-- A connective after a chain takes all of the chain as its left operand. -/
theorem Consumes.chain {sign : Token} {op : Connective} {ls rs : List Token} {tier : Nat} {l r : Expr}
    (hop : Connective.ofKind? sign.kind = some op) (htier : op.tier = tier)
    (hl : Consumes ls tier l) (hr : Consumes rs (tier + 1) r) :
    Consumes (ls ++ sign :: rs) tier (op.join l r) := by
  intro before openings links hlinks
  have hpos : 0 < tier := htier ▸ op.tier_pos
  have hlt : tier < 6 := htier ▸ op.tier_lt
  obtain ⟨inner, left, hrun, hclose, hinner⟩ := hl before openings links hlinks
  have hread : read ⟨before, openings, inner ++ links, some left⟩ (.ofToken sign) =
      .ok ⟨before, openings, .operand l op :: links, none⟩ := by
    show readConnective _ left sign = _
    rw [readConnective, hop]
    show Except.ok (Pending.mk before openings
      (.operand (Link.settle op.tier (inner ++ links) left).2 op ::
        (Link.settle op.tier (inner ++ links) left).1) none) = _
    rw [htier, Link.settle_append left (hinner hpos) (hlinks hlt), hclose]
  obtain ⟨inner', right, hrun', hclose', hinner'⟩ := hr before openings (.operand l op :: links) (by
    intro _ link hlink
    obtain rfl : .operand l op = link := Option.some.inj hlink
    simp [Link.binds, htier])
  refine ⟨inner' ++ [.operand l op], right, ?_, ?_, ?_⟩
  · rw [run_append (sign :: rs) hrun, run_cons rs hread, hrun', List.append_assoc,
      List.singleton_append]
  · rw [Link.close_append, hclose']
    rfl
  · intro _ link hlink
    rcases List.mem_append.1 hlink with hlink | hlink
    · exact Link.binds_mono (by omega) (hinner' (by omega) link hlink)
    · rw [List.mem_singleton.1 hlink]
      exact decide_eq_true (Nat.le_of_eq htier.symm)

/-- What is assigned may be any expression: the construct is not complete before a token that an outer
construct waits for. -/
theorem Consumes.assignment {name equal : Token} {ts : List Token} {e : Expr}
    (hname : name.kind = .identifier) (hequal : equal.kind = .equal) (h : Consumes ts 0 e) :
    Consumes (name :: equal :: ts) 0 (.assign (String.ofList name.text) e) := by
  intro before openings links hlinks
  have hreadName : read ⟨before, openings, links, none⟩ (.ofToken name) =
      .ok ⟨before, openings, links, some (.name (String.ofList name.text))⟩ := by
    obtain ⟨kind, text, start⟩ := name
    cases hname
    rfl
  have hreadEqual :
      read ⟨before, openings, links, some (.name (String.ofList name.text))⟩ (.ofToken equal) =
        .ok ⟨before, openings, .assignment (String.ofList name.text) :: links, none⟩ := by
    obtain ⟨kind, text, start⟩ := equal
    cases hequal
    have hsettle : Link.settle 0 ([] ++ links) (.name (String.ofList name.text)) =
        (links, .name (String.ofList name.text)) :=
      Link.settle_append _ (fun _ h => nomatch h) (hlinks (by omega))
    rw [List.nil_append] at hsettle
    show readConnective _ _ ⟨.equal, text, start⟩ = _
    rw [readConnective]
    simp only [Connective.ofKind?, TokenKind.binary?, TokenKind.logical?, Option.map_none,
      Option.or_none, hsettle]
  obtain ⟨inner, r, hrun, hclose, _⟩ := h before openings
    (.assignment (String.ofList name.text) :: links) (by
      intro _ link hlink
      obtain rfl := Option.some.inj hlink
      exact Bool.false_ne_true)
  refine ⟨inner ++ [.assignment (String.ofList name.text)], r, ?_, ?_, fun h => nomatch h⟩
  · rw [run_cons _ hreadName, run_cons _ hreadEqual, hrun, List.append_assoc, List.singleton_append]
  · rw [Link.close_append, hclose]
    rfl

/-- Both branches of a condition may be any expression. -/
theorem Consumes.conditional {question colon : Token} {cs ts es : List Token} {c t e : Expr}
    (hquestion : question.kind = .question) (hcolon : colon.kind = .colon) (hc : Consumes cs 1 c)
    (ht : Consumes ts 0 t) (he : Consumes es 0 e) :
    Consumes (cs ++ question :: ts ++ colon :: es) 0 (.conditional c t e) := by
  intro before openings links hlinks
  have hclear : ∀ link ∈ links.head?, ¬link.binds 0 := hlinks (by omega)
  obtain ⟨inner, condition, hrunCondition, hcloseCondition, hinner⟩ := hc before openings links
    fun _ link hlink hbinds => hclear link hlink (Link.binds_mono (by omega) hbinds)
  have hreadQuestion :
      read ⟨before, openings, inner ++ links, some condition⟩ (.ofToken question) =
        .ok ⟨before, (.consequent c, links) :: openings, [], none⟩ := by
    obtain ⟨kind, text, start⟩ := question
    cases hquestion
    have hsettle := Link.settle_append condition
      (fun link hlink => Link.binds_mono (by omega) (hinner (by omega) link hlink)) hclear
    show Except.ok (Pending.mk before
      ((.consequent (Link.settle 0 (inner ++ links) condition).2,
        (Link.settle 0 (inner ++ links) condition).1) :: openings) [] none) = _
    rw [hsettle, hcloseCondition]
  obtain ⟨inner', consequent, hrunConsequent, hcloseConsequent, _⟩ :=
    ht before ((.consequent c, links) :: openings) [] fun _ _ hlink => nomatch hlink
  have hreadColon :
      read ⟨before, (.consequent c, links) :: openings, inner' ++ [], some consequent⟩
          (.ofToken colon) =
        .ok ⟨before, openings, .alternative c t :: links, none⟩ := by
    obtain ⟨kind, text, start⟩ := colon
    cases hcolon
    rw [List.append_nil, ← hcloseConsequent]
    rfl
  obtain ⟨inner'', alternative, hrunAlternative, hcloseAlternative, _⟩ :=
    he before openings (.alternative c t :: links) (by
      intro _ link hlink
      obtain rfl := Option.some.inj hlink
      exact Bool.false_ne_true)
  refine ⟨inner'' ++ [.alternative c t], alternative, ?_, ?_, fun h => nomatch h⟩
  · rw [List.append_assoc, run_append _ hrunCondition, List.cons_append, run_cons _ hreadQuestion,
      run_append _ hrunConsequent, run_cons _ hreadColon, hrunAlternative, List.append_assoc,
      List.singleton_append]
  · rw [Link.close_append, hcloseAlternative]
    rfl

/-- What stands between parentheses is an operand. -/
theorem Consumes.paren {left right : Token} {ts : List Token} {e : Expr}
    (hleft : left.kind = .leftParen) (hright : right.kind = .rightParen) (h : Consumes ts 0 e) :
    Consumes (left :: ts ++ [right]) 6 (.paren e) := by
  intro before openings links _
  have hreadLeft : read ⟨before, openings, links, none⟩ (.ofToken left) =
      .ok ⟨before, (.paren, links) :: openings, [], none⟩ := by
    obtain ⟨kind, text, start⟩ := left
    cases hleft
    rfl
  obtain ⟨inner, r, hrun, hclose, _⟩ := h before ((.paren, links) :: openings) []
    (fun _ _ hlink => nomatch hlink)
  have hreadRight : read ⟨before, (.paren, links) :: openings, inner ++ [], some r⟩ (.ofToken right) =
      .ok ⟨before, openings, links, some (.paren e)⟩ := by
    obtain ⟨kind, text, start⟩ := right
    cases hright
    rw [List.append_nil, ← hclose]
    rfl
  refine ⟨[], .paren e, ?_, rfl, fun _ link hlink => nomatch hlink⟩
  rw [List.cons_append, run_cons _ hreadLeft, run_append [right] hrun, run_cons [] hreadRight]
  rfl

/-! ## Operands of one token -/

theorem consumes_dice {t : Token} {term : DiceTerm} (ht : t.kind = .dice)
    (hterm : DiceTerm.read t.text = .ok term) : Consumes [t] 6 (.dice term) := by
  obtain ⟨kind, text, start⟩ := t
  cases ht
  refine consumes_operand fun p => ?_
  simp only [readOperand, Word.ofToken, hterm]

theorem consumes_name {t : Token} (ht : t.kind = .identifier) :
    Consumes [t] 6 (.name (String.ofList t.text)) := by
  obtain ⟨kind, text, start⟩ := t
  cases ht
  exact consumes_operand fun _ => rfl

theorem consumes_string {t : Token} (ht : t.kind = .string) :
    Consumes [t] 6 (.string (String.ofList (Text.unescape t.body))) := by
  obtain ⟨kind, text, start⟩ := t
  cases ht
  exact consumes_operand fun _ => rfl

theorem consumes_template {t : Token} {pieces : List Piece} {segments : List Segment}
    (ht : t.kind = .template) (hsplits : Piece.Splits (t.start + 1) t.body pieces)
    (hread : pieces.mapM Piece.read = .ok segments) : Consumes [t] 6 (.template segments) := by
  have hsegments : (Word.ofToken t).segments = .ok segments := by
    rw [Word.ofToken, Segment.readBody, hsplits.ofBody_eq, hread]
  obtain ⟨kind, text, start⟩ := t
  cases ht
  refine consumes_operand fun p => ?_
  show ((Word.ofToken ⟨.template, text, start⟩).segments >>= fun segments =>
    Except.ok { p with operand := some (.template segments) }) = _
  rw [hsegments]
  rfl

/-! ## Integers -/

/-- Reading an integer decides by its value, and by the sign before it. -/
theorem readInteger_eq {p : Pending} {t : Token} (ht : t.kind = .integer) (hformed : t.WellFormed) :
    p.readInteger t =
      if t.value < Number.bound then .ok { p with operand := some (.number (Int64.ofNat t.value)) }
      else
        match p.links with
        | .unary .minus :: links =>
          if t.value = Number.bound then .ok { p with links, operand := some (.number Int64.minValue) }
          else .error (.atToken t .integerOutOfRange)
        | _ => .error (.atToken t .integerOutOfRange) := by
  obtain ⟨hne, hdigits⟩ := hformed ht
  obtain ⟨before, openings, links, operand⟩ := p
  have hvalue : Text.Decimal.value t.text = t.value := rfl
  have hlimit : 0x8000000000000000 = Number.bound := rfl
  rw [readInteger, Text.Decimal.read_eq hne hdigits, hvalue, hlimit]
  by_cases hlt : t.value < Number.bound
  · rw [if_pos (Nat.le_of_lt hlt), if_pos hlt]
    exact if_pos hlt
  · rw [if_neg hlt]
    by_cases heq : t.value = Number.bound
    · rw [if_pos (Nat.le_of_eq heq)]
      refine (if_neg hlt).trans ?_
      rcases links with _ | ⟨(_ | _ | _) | _ | _ | _, links⟩ <;>
        first | rfl | exact (if_pos heq).symm
    · rw [if_neg (by omega)]
      rcases links with _ | ⟨(_ | _ | _) | _ | _ | _, links⟩ <;>
        first | rfl | exact (if_neg heq).symm

theorem consumes_integer {t : Token} (ht : t.kind = .integer) (hformed : t.WellFormed)
    (hvalue : t.value < Number.bound) : Consumes [t] 6 (.number (Int64.ofNat t.value)) := by
  refine consumes_operand fun p => ?_
  have hread : p.readOperand (.ofToken t) = p.readInteger t := by
    obtain ⟨kind, text, start⟩ := t
    cases ht
    rfl
  rw [hread, readInteger_eq ht hformed, if_pos hvalue]

/-- The least number is written with its sign. -/
theorem consumes_least {minus t : Token} (hminus : minus.kind = .minus) (ht : t.kind = .integer)
    (hformed : t.WellFormed) (hvalue : t.value = Number.bound) :
    Consumes [minus, t] 6 (.number Int64.minValue) := by
  intro before openings links _
  have hop : minus.kind.unary? = some .minus := by rw [hminus]; rfl
  have hreadMinus := read_sign hop before openings links
  have hreadInteger : read ⟨before, openings, .unary .minus :: links, none⟩ (.ofToken t) =
      .ok ⟨before, openings, links, some (.number Int64.minValue)⟩ := by
    have hread := readInteger_eq (p := ⟨before, openings, .unary .minus :: links, none⟩) ht hformed
    rw [if_neg (by omega)] at hread
    obtain ⟨kind, text, start⟩ := t
    cases ht
    exact hread.trans (if_pos hvalue)
  refine ⟨[], .number Int64.minValue, ?_, rfl, fun _ link hlink => nomatch hlink⟩
  rw [run_cons _ hreadMinus, run_cons _ hreadInteger]
  rfl

/-! ## Scripts -/

/-- The pending state is at the end of the expressions of `s`. -/
def Completes (p : Pending) (s : Script) : Prop :=
  p.openings = [] ∧ ∃ e, p.operand = some e ∧ append p.before (Link.close p.links e) = s

theorem Completes.finish {p : Pending} {s : Script} (h : p.Completes s) (stop : Nat) :
    p.finish stop = .ok s := by
  obtain ⟨hopenings, e, hoperand, hs⟩ := h
  rw [Pending.finish, hoperand, hopenings, ← hs]

/-- A semicolon after an expression. -/
theorem Completes.read {p : Pending} {s : Script} {semicolon : Token} (h : p.Completes s)
    (hsemicolon : semicolon.kind = .semicolon) :
    p.read (.ofToken semicolon) = .ok ⟨some s, [], [], none⟩ := by
  obtain ⟨before, openings, links, operand⟩ := p
  obtain ⟨hopenings, e, hoperand, hs⟩ := h
  cases hopenings
  cases hoperand
  rw [← hs]
  obtain ⟨kind, text, start⟩ := semicolon
  cases hsemicolon
  rfl

/-- The tokens of an expression, with nothing or complete expressions before them. -/
theorem Consumes.completes {ts : List Token} {e : Expr} (h : Consumes ts 0 e)
    (before : Option Script) :
    ∃ p, run ⟨before, [], [], none⟩ ts = .ok p ∧ p.Completes (append before e) := by
  obtain ⟨inner, r, hrun, hclose, _⟩ := h before [] [] fun _ _ hlink => nomatch hlink
  refine ⟨_, hrun, rfl, r, rfl, ?_⟩
  rw [List.append_nil, hclose]

end Pending

/-- The tokens are read as the script. -/
theorem Script.read_of_run {start : Nat} {source : List Char} {p : Pending} {s : Script}
    (hrun : Pending.start.run (Token.scan start source) = .ok p)
    (hfinish : ∀ stop, p.finish stop = .ok s) : Script.read start source = .ok s := by
  rw [Script.read_eq]
  show (Pending.start.run (Token.scan start source) >>= _) = _
  rw [hrun]
  exact hfinish _

/-! ## The induction -/

mutual

theorem Expr.Reads.consumes {phrase : Phrase} {ts : List Token} {e : Expr}
    (h : Expr.Reads phrase ts e) (hformed : ∀ t ∈ ts, t.WellFormed) :
    Pending.Consumes ts phrase.tier e :=
  match h with
  | .assignment hname hequal h => by
    have hts := (List.forall_mem_cons.1 (List.forall_mem_cons.1 hformed).2).2
    exact .assignment hname hequal (h.consumes hts)
  | .expr h => h.consumes hformed
  | .conditional hquestion hcolon hc ht he => by
    obtain ⟨hleft, hes⟩ := List.forall_mem_append.1 hformed
    obtain ⟨hcs, hts⟩ := List.forall_mem_append.1 hleft
    exact .conditional hquestion hcolon (hc.consumes hcs)
      (ht.consumes (List.forall_mem_cons.1 hts).2) (he.consumes (List.forall_mem_cons.1 hes).2)
  | .ternary h => (h.consumes hformed).loosen
  | .chain hsign hop hl hr => by
    obtain ⟨hls, hrs⟩ := List.forall_mem_append.1 hformed
    have hright := hr.consumes (List.forall_mem_cons.1 hrs).2
    rw [(Phrase.tier_part (List.ne_nil_of_mem hsign)).1] at hright
    exact .chain hop (Phrase.tier_operator hsign hop) (hl.consumes hls) hright
  | .part hphrase h => by
    have hpart := h.consumes hformed
    rw [(Phrase.tier_part hphrase).1] at hpart
    exact hpart.loosen
  | .sign hop h => .sign hop (h.consumes (List.forall_mem_cons.1 hformed).2)
  | .least hminus ht hvalue => by
    have ht' := hformed _ (List.mem_cons_of_mem _ List.mem_cons_self)
    exact Pending.consumes_least hminus ht ht' hvalue
  | .unary h => h.consumes hformed
  | .integer ht hvalue => Pending.consumes_integer ht (hformed _ List.mem_cons_self) hvalue
  | .dice ht hterm => Pending.consumes_dice ht hterm
  | .name ht => Pending.consumes_name ht
  | .string ht => Pending.consumes_string ht
  | .template ht hsplits h => Pending.consumes_template ht hsplits h.mapM_read
  | .paren hleft hright h => by
    have hts := (List.forall_mem_append.1 (List.forall_mem_cons.1 hformed).2).1
    exact .paren hleft hright (h.consumes hts)

theorem Segment.Reads.mapM_read {pieces : List Piece} {segments : List Segment}
    (h : Segment.Reads pieces segments) : pieces.mapM Piece.read = .ok segments :=
  match h with
  | .nil => rfl
  | .text h => by
    rw [List.mapM_cons, h.mapM_read]
    rfl
  | .code hscript h => by
    obtain ⟨p, hrun, hfinish⟩ := hscript.run fun t ht => Token.wellFormed_of_mem_scan ht
    rw [List.mapM_cons, h.mapM_read, Piece.read, Script.read_of_run hrun (hfinish.2)]
    rfl

theorem Script.Reads.run {phrase : Phrase} {ts : List Token} {s : Script}
    (h : Script.Reads phrase ts s) (hformed : ∀ t ∈ ts, t.WellFormed) :
    ∃ p, Pending.start.run ts = .ok p ∧ (phrase = .sequence → p.Completes s) ∧
      ∀ stop, p.finish stop = .ok s :=
  match h with
  | .program h => by
    obtain ⟨p, hrun, _, hfinish⟩ := h.run hformed
    exact ⟨p, hrun, (nomatch ·), hfinish⟩
  | .trailing hsemicolon h => by
    obtain ⟨p, hrun, hcompletes, _⟩ := h.run (List.forall_mem_append.1 hformed).1
    refine ⟨⟨some _, [], [], none⟩, ?_, (nomatch ·), fun _ => rfl⟩
    rw [Pending.run_append _ hrun, Pending.run_cons _ ((hcompletes rfl).read hsemicolon)]
    rfl
  | .item h => by
    obtain ⟨p, hrun, hcompletes⟩ := (h.consumes hformed).completes none
    exact ⟨p, hrun, fun _ => hcompletes, hcompletes.finish⟩
  | .sequence hsemicolon hl hr => by
    obtain ⟨hls, hrs⟩ := List.forall_mem_append.1 hformed
    obtain ⟨p, hrun, hcompletes, _⟩ := hl.run hls
    obtain ⟨q, hrun', hcompletes'⟩ :=
      (hr.consumes (List.forall_mem_cons.1 hrs).2).completes (some _)
    refine ⟨q, ?_, fun _ => hcompletes', hcompletes'.finish⟩
    rw [Pending.run_append _ hrun, Pending.run_cons _ ((hcompletes rfl).read hsemicolon), hrun']

end
end Tabletop
