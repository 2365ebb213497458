import Tabletop.Proofs.Script.Completeness

/-!
# What is read is derived

What has been read of a script is the tokens of its complete expressions, of the constructs that still wait
for something, and of the operand that was read last.  `Pending.Explains` is this invariant.  A construct
that waits inside another one fits there: its tier is at least what the outer one demands of its last
operand.  Completing constructs from the inside out then always gives a phrase that fits.
-/

namespace Tabletop

/-! ## Phrases by tier -/

/-- The loosest phrase whose connectives all bind at least as tightly as the tier. -/
def Phrase.ofTier : Nat → Phrase
  | 0 => expr
  | 1 => or
  | 2 => and
  | 3 => cmp
  | 4 => add
  | 5 => mul
  | _ => unary

theorem Connective.mem_operators {kind : TokenKind} {op : Connective}
    (h : Connective.ofKind? kind = some op) : kind ∈ (Phrase.ofTier op.tier).operators := by
  cases kind <;> cases h <;> decide

theorem Connective.part_ofTier (op : Connective) :
    (Phrase.ofTier op.tier).part = Phrase.ofTier (op.tier + 1) := by
  rcases op with (op | op) | op <;> cases op <;> rfl

theorem TokenKind.eq_minus_of_unary? {kind : TokenKind} (h : kind.unary? = some .minus) :
    kind = .minus := by
  cases kind <;> cases h
  rfl

theorem Connective.join_ne_name (op : Connective) (l r : Expr) (x : String) :
    op.join l r ≠ .name x := by
  cases op <;> exact nofun

namespace Expr.Reads

theorem ofTier_of_succ {tier : Nat} {ts : List Token} {e : Expr}
    (h : Expr.Reads (.ofTier (tier + 1)) ts e) : Expr.Reads (.ofTier tier) ts e := by
  match tier with
  | 0 => exact .expr (.ternary h)
  | 1 => exact .part (List.cons_ne_nil _ _) h
  | 2 => exact .part (List.cons_ne_nil _ _) h
  | 3 => exact .part (List.cons_ne_nil _ _) h
  | 4 => exact .part (List.cons_ne_nil _ _) h
  | 5 => exact .part (List.cons_ne_nil _ _) h
  | _ + 6 => exact h

/-- A tight phrase stands wherever a looser one may stand. -/
theorem loosen {tier tier' : Nat} {ts : List Token} {e : Expr} (hle : tier ≤ tier')
    (h : Expr.Reads (.ofTier tier') ts e) : Expr.Reads (.ofTier tier) ts e := by
  induction tier', hle using Nat.le_induction with
  | base => exact h
  | succ tier' _ ih => exact ih h.ofTier_of_succ

/-- Only a bare name stands for a name. -/
theorem eq_singleton_of_name {phrase : Phrase} {ts : List Token} {e : Expr} {x : String}
    (h : Expr.Reads phrase ts e) (he : e = .name x) :
    ∃ t : Token, ts = [t] ∧ t.kind = .identifier ∧ x = String.ofList t.text :=
  match h with
  | .assignment _ _ _ => nomatch he
  | .expr h => h.eq_singleton_of_name he
  | .conditional _ _ _ _ _ => nomatch he
  | .ternary h => h.eq_singleton_of_name he
  | .chain _ _ _ _ => absurd he (Connective.join_ne_name _ _ _ _)
  | .part _ h => h.eq_singleton_of_name he
  | .sign _ _ => nomatch he
  | .least _ _ _ => nomatch he
  | .unary h => h.eq_singleton_of_name he
  | .integer _ _ => nomatch he
  | .dice _ _ => nomatch he
  | .name ht => ⟨_, rfl, ht, (Expr.name.inj he).symm⟩
  | .string _ => nomatch he
  | .template _ _ _ => nomatch he
  | .paren _ _ _ => nomatch he

end Expr.Reads

/-! ## Links that wait -/

namespace Link

/-- The tier of a construct that is complete. -/
def tier : Link → Nat
  | unary _ => 6
  | operand _ op => op.tier
  | alternative _ _ => 0
  | assignment _ => 0

/-- The tier that a construct demands of its last operand. -/
def demand : Link → Nat
  | unary _ => 6
  | operand _ op => op.tier + 1
  | alternative _ _ => 0
  | assignment _ => 0

/-- The tokens of a construct up to its last operand. -/
inductive Starts : Link → List Token → Prop
  | unary {sign : Token} {op} (hop : sign.kind.unary? = some op) : Starts (.unary op) [sign]
  | operand {sign : Token} {op left ts} (hop : Connective.ofKind? sign.kind = some op)
    (hleft : Expr.Reads (.ofTier op.tier) ts left) : Starts (.operand left op) (ts ++ [sign])
  | alternative {question colon : Token} {cs ts condition consequent}
    (hquestion : question.kind = .question) (hcolon : colon.kind = .colon)
    (hcondition : Expr.Reads .or cs condition) (hconsequent : Expr.Reads .expr ts consequent) :
    Starts (.alternative condition consequent) (cs ++ question :: ts ++ [colon])
  | assignment {name equal : Token} (hname : name.kind = .identifier)
    (hequal : equal.kind = .equal) : Starts (.assignment (String.ofList name.text)) [name, equal]

/-- With an operand that fits, a construct is complete. -/
theorem Starts.fill {link : Link} {ts us : List Token} {e : Expr} (h : Starts link ts)
    (he : Expr.Reads (.ofTier link.demand) us e) :
    Expr.Reads (.ofTier link.tier) (ts ++ us) (link.fill e) := by
  cases h with
  | unary hop => exact .sign hop he
  | @operand sign op left ts hop hleft =>
    rw [List.append_assoc, List.singleton_append]
    have hright : Expr.Reads (Phrase.ofTier op.tier).part us e := by
      rw [op.part_ofTier]
      exact he
    exact .chain (Connective.mem_operators hop) hop hleft hright
  | alternative hquestion hcolon hcondition hconsequent =>
    rw [List.append_assoc, List.singleton_append]
    exact .expr (.conditional hquestion hcolon hcondition hconsequent he)
  | assignment hname hequal => exact .assignment hname hequal he

/-- What the innermost construct demands; an expression that no construct waits for may be any. -/
def demandAll : List Link → Nat
  | [] => 0
  | link :: _ => link.demand

theorem demandAll_le (links : List Link) : demandAll links ≤ 6 := by
  rcases links with _ | ⟨_ | ⟨_, op⟩ | _ | _, _⟩
  · exact Nat.zero_le 6
  · exact Nat.le_refl 6
  · exact op.tier_lt
  · exact Nat.zero_le 6
  · exact Nat.zero_le 6

/-- The tokens of constructs that wait, each inside the one before it. -/
inductive Wait : List Link → List Token → Prop
  | nil : Wait [] []
  | cons {link links ts us} (hlinks : Wait links ts) (hlink : Starts link us)
    (hfits : demandAll links ≤ link.tier) : Wait (link :: links) (ts ++ us)

/-- A token that settles constructs leaves those that demand less, and before it stands a phrase of its
tier. -/
theorem Wait.settle {links : List Link} {ts us : List Token} {tier m : Nat} {e : Expr}
    (h : Wait links ts) (htier : tier ≤ 6) (hm : max tier 1 ≤ m) (hfits : demandAll links ≤ m)
    (he : Expr.Reads (.ofTier m) us e) :
    ∃ ts' us', ts ++ us = ts' ++ us' ∧ Wait (settle tier links e).1 ts' ∧
      demandAll (Link.settle tier links e).1 ≤ tier ∧
      Expr.Reads (.ofTier (max tier 1)) us' (Link.settle tier links e).2 := by
  induction h generalizing us m e with
  | nil => exact ⟨[], us, rfl, .nil, Nat.zero_le tier, he.loosen hm⟩
  | @cons link links ts vs hlinks hlink hinside ih =>
    rw [Link.settle]
    by_cases hbinds : link.binds tier
    · rw [if_pos hbinds, List.append_assoc]
      have hlinkTier : max tier 1 ≤ link.tier := by
        cases link with
        | unary op =>
          show max tier 1 ≤ 6
          omega
        | operand left op => exact Nat.max_le.2 ⟨of_decide_eq_true hbinds, op.tier_pos⟩
        | alternative condition consequent => cases hbinds
        | assignment name => cases hbinds
      exact ih hlinkTier hinside (hlink.fill (he.loosen hfits))
    · rw [if_neg hbinds]
      refine ⟨ts ++ vs, us, rfl, .cons hlinks hlink hinside, ?_, he.loosen hm⟩
      cases link with
      | unary op => exact absurd rfl hbinds
      | operand left op =>
        have hlt : ¬tier ≤ op.tier := fun hle => hbinds (decide_eq_true hle)
        show op.tier + 1 ≤ tier
        omega
      | alternative condition consequent => exact Nat.zero_le tier
      | assignment name => exact Nat.zero_le tier

/-- All constructs together are an expression. -/
theorem Wait.close {links : List Link} {ts us : List Token} {m : Nat} {e : Expr} (h : Wait links ts)
    (hfits : demandAll links ≤ m) (he : Expr.Reads (.ofTier m) us e) :
    Expr.Reads .expr (ts ++ us) (close links e) := by
  induction h generalizing us m e with
  | nil => exact he.loosen (Nat.zero_le m)
  | cons _ hlink hinside ih =>
    rw [List.append_assoc]
    exact ih hinside (hlink.fill (he.loosen hfits))

end Link

/-! ## Openings that wait -/

/-- The tokens of openings that wait, each with the links around it.  A condition is complete as soon as
its last branch is, so the links around it must not demand more. -/
inductive Opening.Wait : List (Opening × List Link) → List Token → Prop
  | nil : Wait [] []
  | consequent {question : Token} {openings links ts us cs condition} (hopenings : Wait openings ts)
    (hlinks : Link.Wait links us) (hfits : Link.demandAll links ≤ 0)
    (hquestion : question.kind = .question) (hcondition : Expr.Reads .or cs condition) :
    Wait ((.consequent condition, links) :: openings) (ts ++ us ++ (cs ++ [question]))
  | paren {left : Token} {openings links ts us} (hopenings : Wait openings ts)
    (hlinks : Link.Wait links us) (hleft : left.kind = .leftParen) :
    Wait ((.paren, links) :: openings) (ts ++ us ++ [left])

namespace Pending

/-! ## The invariant -/

/-- The tokens of the complete expressions, the last with its semicolon. -/
inductive Before : Option Script → List Token → Prop
  | none : Before none []
  | some {semicolon : Token} {s ts} (h : Script.Reads .sequence ts s)
    (hsemicolon : semicolon.kind = .semicolon) : Before (some s) (ts ++ [semicolon])

/-- The tokens of the operand that has been read. -/
inductive Operand : Option Expr → List Token → Prop
  | none : Operand none []
  | some {e ts} (h : Expr.Reads .unary ts e) : Operand (some e) ts

/-- The tokens are what has been read so far. -/
inductive Explains : Pending → List Token → Prop
  | intro {before openings links operand bs os ls rs ts} (hts : ts = bs ++ os ++ (ls ++ rs))
    (hbefore : Before before bs) (hopenings : Opening.Wait openings os)
    (hlinks : Link.Wait links ls) (hoperand : Operand operand rs) :
    Explains ⟨before, openings, links, operand⟩ ts

theorem Before.append {before : Option Script} {bs ts : List Token} {e : Expr}
    (h : Before before bs) (he : Expr.Reads .expr ts e) :
    Script.Reads .sequence (bs ++ ts) (append before e) := by
  cases h with
  | none => exact .item he
  | some h hsemicolon =>
    rw [List.append_assoc, List.singleton_append]
    exact .sequence hsemicolon h he

/-- A token that is an operand by itself. -/
theorem Explains.operand {before : Option Script} {openings : List (Opening × List Link)}
    {links : List Link} {ts : List Token} {t : Token} {e : Expr}
    (h : Explains ⟨before, openings, links, none⟩ ts) (he : Expr.Reads .atom [t] e) :
    Explains ⟨before, openings, links, some e⟩ (ts ++ [t]) := by
  obtain ⟨rfl, hbefore, hopenings, hlinks, hoperand⟩ := h
  cases hoperand
  exact .intro (by simp) hbefore hopenings hlinks (.some (.unary he))

/-- An integer, with the sign before it if it is the least one. -/
theorem Explains.readInteger {before : Option Script} {openings : List (Opening × List Link)}
    {links : List Link} {ts : List Token} {t : Token} {q : Pending}
    (h : Explains ⟨before, openings, links, none⟩ ts) (ht : t.kind = .integer)
    (hformed : t.WellFormed)
    (hread : Pending.readInteger ⟨before, openings, links, none⟩ t = .ok q) :
    q.Explains (ts ++ [t]) := by
  rw [readInteger_eq ht hformed] at hread
  by_cases hvalue : t.value < Number.bound
  · rw [if_pos hvalue] at hread
    cases hread
    exact h.operand (.integer ht hvalue)
  · rw [if_neg hvalue] at hread
    split at hread
    · rename_i links' hlinks'
      obtain rfl : links = .unary .minus :: links' := hlinks'
      split at hread
      · rename_i heq
        cases hread
        obtain ⟨rfl, hbefore, hopenings, hlinks, hoperand⟩ := h
        cases hoperand
        cases hlinks with
        | cons hlinks hlink hfits =>
          cases hlink with
          | @unary sign _ hop =>
            have hminus := TokenKind.eq_minus_of_unary? hop
            exact .intro (by simp) hbefore hopenings hlinks (.some (.least hminus ht heq))
      · cases hread
    · cases hread

/-! ## Taking a token -/

/-- Where an operand has to begin, a token is an operand, or begins one. -/
theorem Explains.readOperand {before : Option Script} {openings : List (Opening × List Link)}
    {links : List Link} {ts : List Token} {t : Token} {q : Pending}
    (h : Explains ⟨before, openings, links, none⟩ ts) (hformed : t.WellFormed)
    (htemplate : ∀ segments, t.kind = .template → (Word.ofToken t).segments = .ok segments →
      ∃ pieces, Piece.Splits (t.start + 1) t.body pieces ∧ Segment.Reads pieces segments)
    (hread : Pending.readOperand ⟨before, openings, links, none⟩ (.ofToken t) = .ok q) :
    q.Explains (ts ++ [t]) := by
  have htoken : (Word.ofToken t).token = t := rfl
  rw [Pending.readOperand, htoken] at hread
  split at hread
  · rename_i hkind
    exact h.readInteger hkind hformed hread
  · rename_i hkind
    split at hread
    · rename_i hterm
      cases hread
      exact h.operand (.dice hkind hterm)
    · cases hread
  · rename_i hkind
    cases hread
    exact h.operand (.name hkind)
  · rename_i hkind
    cases hread
    exact h.operand (.string hkind)
  · rename_i hkind
    cases hsegments : (Word.ofToken t).segments with
    | error why =>
      rw [hsegments] at hread
      cases hread
    | ok segments =>
      rw [hsegments] at hread
      cases hread
      obtain ⟨pieces, hsplits, hreads⟩ := htemplate segments hkind hsegments
      exact h.operand (.template hkind hsplits hreads)
  · rename_i hkind
    cases hread
    obtain ⟨rfl, hbefore, hopenings, hlinks, hoperand⟩ := h
    cases hoperand
    exact .intro (by simp) hbefore (.paren hopenings hlinks hkind) .nil .none
  · split at hread
    · rename_i hop
      cases hread
      obtain ⟨rfl, hbefore, hopenings, hlinks, hoperand⟩ := h
      cases hoperand
      have hlinks' := Link.Wait.cons hlinks (.unary hop) (Link.demandAll_le links)
      exact .intro (by simp) hbefore hopenings hlinks' .none
    · cases hread

/-- A token that ends an expression. -/
theorem explains_readEnd {before : Option Script} {openings : List (Opening × List Link)}
    {links : List Link} {operand : Option Expr} {bs os us : List Token} {t : Token} {e : Expr}
    {q : Pending} (hbefore : Before before bs) (hopenings : Opening.Wait openings os)
    (he : Expr.Reads .expr us e)
    (hread : Pending.readEnd ⟨before, openings, links, operand⟩ e t = .ok q) :
    q.Explains (bs ++ os ++ us ++ [t]) := by
  rw [readEnd] at hread
  cases hopenings with
  | nil =>
    simp only at hread
    split at hread
    · rename_i hkind
      cases hread
      exact .intro (by simp) (.some (hbefore.append he) hkind) .nil .nil .none
    · cases hread
  | consequent hopenings hlinks hfits hquestion hcondition =>
    simp only at hread
    split at hread
    · rename_i hkind
      cases hread
      have hlinks' := Link.Wait.cons hlinks (.alternative hquestion hkind hcondition he) hfits
      exact .intro (by simp) hbefore hopenings hlinks' .none
    · cases hread
  | paren hopenings hlinks hleft =>
    simp only at hread
    split at hread
    · rename_i hkind
      cases hread
      exact .intro (by simp) hbefore hopenings hlinks (.some (.unary (.paren hleft hkind he)))
    · cases hread

/-- A token that follows an operand. -/
theorem Explains.readConnective {before : Option Script} {openings : List (Opening × List Link)}
    {links : List Link} {ts : List Token} {t : Token} {q : Pending} {e : Expr}
    (h : Explains ⟨before, openings, links, some e⟩ ts)
    (hread : Pending.readConnective ⟨before, openings, links, some e⟩ e t = .ok q) :
    q.Explains (ts ++ [t]) := by
  obtain ⟨rfl, hbefore, hopenings, hlinks, hoperand⟩ := h
  rcases hoperand with _ | he
  rw [Pending.readConnective] at hread
  split at hread
  · rename_i op hop
    cases hread
    obtain ⟨ls', rs', htokens, hlinks', hfits, hleft⟩ :=
      hlinks.settle (Nat.le_of_lt op.tier_lt) (Nat.max_le.2 ⟨Nat.le_of_lt op.tier_lt, by decide⟩)
        (Link.demandAll_le links) he
    rw [Nat.max_eq_left op.tier_pos] at hleft
    rw [htokens]
    exact .intro (by simp) hbefore hopenings (.cons hlinks' (.operand hop hleft) hfits) .none
  · obtain ⟨ls', rs', htokens, hlinks', hfits, hleft⟩ :=
      hlinks.settle (Nat.zero_le 6) (by decide) (Link.demandAll_le links) he
    split at hread
    · rename_i hkind
      cases hread
      rw [htokens]
      exact .intro (by simp) hbefore (.consequent hopenings hlinks' hfits hkind hleft) .nil .none
    · rename_i hkind
      split at hread
      · rename_i name hsettle
        cases hread
        rw [hsettle] at hlinks' hfits hleft
        obtain ⟨target, rfl, htarget, rfl⟩ := hleft.eq_singleton_of_name rfl
        rw [htokens]
        exact .intro (by simp) hbefore hopenings (.cons hlinks' (.assignment htarget hkind) hfits)
          .none
      · cases hread
    · have hclose := hlinks.close (Link.demandAll_le links) he
      exact explains_readEnd hbefore hopenings hclose hread

/-- What every template token among the tokens stands for. -/
def TemplatesRead (ts : List Token) : Prop :=
  ∀ t ∈ ts, ∀ segments, t.kind = .template → (Word.ofToken t).segments = .ok segments →
    ∃ pieces, Piece.Splits (t.start + 1) t.body pieces ∧ Segment.Reads pieces segments

theorem Explains.run {p q : Pending} {ts us : List Token} (h : p.Explains ts)
    (hformed : ∀ t ∈ us, t.WellFormed) (htemplates : TemplatesRead us) (hrun : p.run us = .ok q) :
    q.Explains (ts ++ us) := by
  induction us generalizing p ts with
  | nil =>
    cases hrun
    rwa [List.append_nil]
  | cons t us ih =>
    cases hread : p.read (.ofToken t) with
    | error why =>
      rw [Pending.run, List.map_cons, List.foldlM_cons, hread] at hrun
      cases hrun
    | ok r =>
      rw [run_cons us hread] at hrun
      have hstep : r.Explains (ts ++ [t]) := by
        obtain ⟨before, openings, links, operand⟩ := p
        cases operand with
        | none =>
          exact h.readOperand (hformed t List.mem_cons_self) (htemplates t List.mem_cons_self) hread
        | some e => exact h.readConnective hread
      have hrest := ih hstep (fun u hu => hformed u (List.mem_cons_of_mem t hu))
        (fun u hu => htemplates u (List.mem_cons_of_mem t hu)) hrun
      rwa [List.append_assoc, List.singleton_append] at hrest

/-- At the end of the tokens, nothing waits any more. -/
theorem Explains.finish {p : Pending} {ts : List Token} {stop : Nat} {s : Script}
    (h : p.Explains ts) (hfinish : p.finish stop = .ok s) : Script.Reads .program ts s := by
  obtain ⟨rfl, hbefore, hopenings, hlinks, hoperand⟩ := h
  cases hoperand with
  | some he =>
    cases hopenings with
    | nil =>
      cases hfinish
      have hclose := hlinks.close (Link.demandAll_le _) he
      rw [List.append_nil]
      exact .program (hbefore.append hclose)
    | consequent => cases hfinish
    | paren => cases hfinish
  | none =>
    rw [Pending.finish] at hfinish
    simp only at hfinish
    split at hfinish
    · cases hfinish
      cases hopenings
      cases hlinks
      rcases hbefore with _ | ⟨hs, hsemicolon⟩
      simp only [List.append_nil]
      exact .trailing hsemicolon hs
    · cases hfinish

end Pending

/-! ## The induction -/

/-- The pieces of a template are what reading made of them, if it did so with the scripts inside. -/
theorem Segment.reads_of_mapM {pieces : List Piece} {segments : List Segment}
    (hscripts : ∀ start inner s, .code start inner ∈ pieces → Script.read start inner = .ok s →
      Script.Reads .program (Token.scan start inner) s)
    (h : pieces.mapM Piece.read = .ok segments) :
    Segment.Reads pieces segments ∧ ∀ why, .fault why ∉ pieces := by
  induction pieces generalizing segments with
  | nil =>
    cases h
    exact ⟨.nil, fun _ hwhy => nomatch hwhy⟩
  | cons piece pieces ih =>
    rw [List.mapM_cons] at h
    cases hpiece : piece.read with
    | error why =>
      rw [hpiece] at h
      cases h
    | ok segment =>
      cases hpieces : pieces.mapM Piece.read with
      | error why =>
        rw [hpiece, hpieces] at h
        cases h
      | ok rest =>
        rw [hpiece, hpieces] at h
        cases h
        obtain ⟨hreads, hfault⟩ := ih
          (fun start inner s hmem => hscripts start inner s (List.mem_cons_of_mem piece hmem)) hpieces
        cases piece with
        | text cs =>
          cases hpiece
          exact ⟨.text hreads, by simpa using hfault⟩
        | code start inner =>
          cases hscript : Script.read start inner with
          | error why =>
            rw [Piece.read, hscript] at hpiece
            cases hpiece
          | ok script =>
            rw [Piece.read, hscript] at hpiece
            cases hpiece
            have hscript' := hscripts start inner script List.mem_cons_self hscript
            exact ⟨.code hscript' hreads, by simpa using hfault⟩
        | fault why => cases hpiece

/-- Whatever is read is what the grammar makes of the tokens. -/
theorem Script.reads_of_read {start : Nat} {source : List Char} {s : Script}
    (h : Script.read start source = .ok s) : Script.Reads .program (Token.scan start source) s := by
  induction start, source using insideInduction generalizing s with
  | inside start source ih =>
    have htemplates : Pending.TemplatesRead (Token.scan start source) := by
      intro t ht segments hkind hsegments
      have hpieces := Segment.reads_of_mapM (fun here inner _ hcode => ih t ht here inner hcode) hsegments
      exact ⟨_, Piece.splits_ofBody hpieces.2, hpieces.1⟩
    rw [Script.read_eq] at h
    cases hrun : Pending.start.run (Token.scan start source) with
    | error why =>
      rw [Pending.run] at hrun
      rw [hrun] at h
      cases h
    | ok p =>
      have hexplains := Pending.Explains.run (.intro rfl .none .nil .nil .none)
        (fun t ht => Token.wellFormed_of_mem_scan ht) htemplates hrun
      rw [Pending.run] at hrun
      rw [hrun] at h
      exact hexplains.finish h

/-- A text is read as a script exactly where the grammar makes the script of its tokens. -/
theorem Script.read_eq_ok_iff {start : Nat} {source : List Char} {s : Script} :
    Script.read start source = .ok s ↔ Script.Reads .program (Token.scan start source) s := by
  constructor
  · exact Script.reads_of_read
  · intro h
    obtain ⟨p, hrun, _, hfinish⟩ := h.run fun t ht => Token.wellFormed_of_mem_scan ht
    exact Script.read_of_run hrun hfinish

end Tabletop
