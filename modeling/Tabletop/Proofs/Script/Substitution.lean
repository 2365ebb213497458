import Tabletop.Proofs.Script.Acceptance
import Tabletop.Proofs.Script.Around
import Tabletop.Proofs.Script.Continuation
import Tabletop.Proofs.Script.Joining
import Tabletop.Proofs.Token.Places

/-!
# Operands of one token

A string or a template in a script is an operand, and every other operand of one token can stand in its place:
the tree is the same around it (`Script.Reads.exists_around`).  This is said of tokens first, where the grammar
decides, and then of source texts, in which the tokens behind stand somewhere else (`Script.exists_around`).

A string in a script inside a template is replaced from the inside out: the script around it is another one then,
so is the body of the template, and so is the template, which is an operand of one token again
(`Script.exists_around_of_within`).
-/

namespace Tabletop

open Text

/-! ## Tokens among other tokens -/

/-- Where a token is not the one that joins two parts, it is in the first part or in the second. -/
theorem Token.mem_parts_of_append_cons_eq {ls rs ts us : List Token} {sign t : Token}
    (h : ls ++ sign :: rs = ts ++ t :: us) (hne : sign.kind ≠ t.kind) :
    (∃ mid, ls = ts ++ t :: mid ∧ us = mid ++ sign :: rs) ∨
      ∃ mid, ts = ls ++ sign :: mid ∧ rs = mid ++ t :: us := by
  rcases List.append_eq_append_iff.1 h with ⟨mid, rfl, hmid⟩ | ⟨mid, rfl, hmid⟩
  · cases mid with
    | nil =>
      obtain ⟨rfl, -⟩ := List.cons.inj hmid
      exact absurd rfl hne
    | cons s mid =>
      obtain ⟨rfl, rfl⟩ := List.cons.inj hmid
      exact .inr ⟨mid, rfl, rfl⟩
  · cases mid with
    | nil =>
      obtain ⟨rfl, -⟩ := List.cons.inj hmid
      exact absurd rfl hne
    | cons s mid =>
      obtain ⟨rfl, rfl⟩ := List.cons.inj hmid
      exact .inl ⟨mid, rfl, rfl⟩

/-- A token that is not the first is behind it. -/
theorem Token.mem_tail_of_cons_eq {rs ts us : List Token} {sign t : Token}
    (h : sign :: rs = ts ++ t :: us) (hne : sign.kind ≠ t.kind) :
    ∃ mid, ts = sign :: mid ∧ rs = mid ++ t :: us := by
  cases ts with
  | nil =>
    obtain ⟨rfl, -⟩ := List.cons.inj h
    exact absurd rfl hne
  | cons s mid =>
    obtain ⟨rfl, rfl⟩ := List.cons.inj h
    exact ⟨mid, rfl, rfl⟩

theorem Token.kind_ne_of_isEnclosed {sign t : Token} {kind : TokenKind} (ht : t.kind.IsEnclosed)
    (hsign : sign.kind = kind) (hkind : ¬kind.IsEnclosed) : sign.kind ≠ t.kind := by
  rintro heq
  rw [← heq, hsign] at ht
  exact hkind ht

theorem Phrase.not_isEnclosed {phrase : Phrase} {kind : TokenKind} (h : kind ∈ phrase.operators) :
    ¬kind.IsEnclosed := by
  have hall : ∀ kind ∈ phrase.operators, ¬kind.IsEnclosed := by
    cases phrase <;> decide
  exact hall kind h

theorem TokenKind.not_isEnclosed {kind : TokenKind} {op : UnaryOperator} (h : kind.unary? = some op) :
    ¬kind.IsEnclosed := by
  cases kind <;> cases h <;> decide

/-! ## Trees -/

/-- In the place of a token there can be another operand of one token: the tokens around it are read as what
stands around. -/
def Expr.Around.ReadFrom (around : Expr.Around) (phrase : Phrase) (ts us : List Token) : Prop :=
  ∀ u x, Expr.Reads .atom [u] x → Expr.Reads phrase (ts ++ u :: us) (around.fill x)

/-- The same in a script. -/
def Script.Around.ReadFrom (around : Script.Around) (phrase : Phrase) (ts us : List Token) : Prop :=
  ∀ u x, Expr.Reads .atom [u] x → Script.Reads phrase (ts ++ u :: us) (around.fill x)

/-- A token that is an operand by itself. -/
theorem Expr.Around.exists_here {ts us : List Token} {s t : Token} (hall : [s] = ts ++ t :: us) :
    ∃ around, Expr.Around.ReadFrom around .atom ts us := by
  cases ts with
  | nil =>
    obtain ⟨rfl, rfl⟩ := List.cons.inj hall
    exact ⟨.here, fun u y hy => hy⟩
  | cons u ts => simp at hall

/-- A string or a template in an expression is an operand of it, and another operand can stand there.  The
induction is on how the tokens are read. -/
theorem Expr.Reads.exists_around {phrase : Phrase} {all : List Token} {e : Expr}
    (h : Expr.Reads phrase all e) {ts us : List Token} {t : Token} (hall : all = ts ++ t :: us)
    (ht : t.kind.IsEnclosed) :
    ∃ around, Expr.Around.ReadFrom around phrase ts us :=
  match h with
  | .assignment hname hequal h => by
    obtain ⟨mid, rfl, hbehind⟩ :=
      Token.mem_tail_of_cons_eq hall (Token.kind_ne_of_isEnclosed ht hname (by decide))
    obtain ⟨mid, rfl, hvalue⟩ :=
      Token.mem_tail_of_cons_eq hbehind (Token.kind_ne_of_isEnclosed ht hequal (by decide))
    obtain ⟨around, hread⟩ := h.exists_around hvalue ht
    exact ⟨.assign _ around, fun u y hy => .assignment hname hequal (hread u y hy)⟩
  | .expr h => by
    obtain ⟨around, hread⟩ := h.exists_around hall ht
    exact ⟨around, fun u y hy => .expr (hread u y hy)⟩
  | @Expr.Reads.conditional _ _ _ _ _ condition consequent alternative hquestion hcolon hc hyes hno => by
    have hquestion' := Token.kind_ne_of_isEnclosed ht hquestion (by decide)
    have hcolon' := Token.kind_ne_of_isEnclosed ht hcolon (by decide)
    rcases Token.mem_parts_of_append_cons_eq hall hcolon' with ⟨after, hfront, rfl⟩ | ⟨mid, rfl, hes⟩
    · rcases Token.mem_parts_of_append_cons_eq hfront hquestion' with ⟨mid, hcs, rfl⟩ | ⟨mid, rfl, hts⟩
      · obtain ⟨around, hread⟩ := hc.exists_around hcs ht
        refine ⟨.condition around consequent alternative, fun u y hy => ?_⟩
        have hcondition := Expr.Reads.conditional hquestion hcolon (hread u y hy) hyes hno
        simp only [List.append_assoc, List.cons_append] at hcondition ⊢
        exact hcondition
      · obtain ⟨around, hread⟩ := hyes.exists_around hts ht
        refine ⟨.consequent condition around alternative, fun u y hy => ?_⟩
        have hconsequent := Expr.Reads.conditional hquestion hcolon hc (hread u y hy) hno
        simp only [List.append_assoc, List.cons_append] at hconsequent ⊢
        exact hconsequent
    · obtain ⟨around, hread⟩ := hno.exists_around hes ht
      refine ⟨.alternative condition consequent around, fun u y hy => ?_⟩
      have halternative := Expr.Reads.conditional hquestion hcolon hc hyes (hread u y hy)
      simp only [List.append_assoc, List.cons_append] at halternative ⊢
      exact halternative
  | .ternary h => by
    obtain ⟨around, hread⟩ := h.exists_around hall ht
    exact ⟨around, fun u y hy => .ternary (hread u y hy)⟩
  | @Expr.Reads.chain _ _ op _ _ left right hsign hop hl hr => by
    have hsign' := Token.kind_ne_of_isEnclosed ht rfl (Phrase.not_isEnclosed hsign)
    rcases Token.mem_parts_of_append_cons_eq hall hsign' with ⟨mid, hls, rfl⟩ | ⟨mid, rfl, hrs⟩
    · obtain ⟨around, hread⟩ := hl.exists_around hls ht
      refine ⟨.left around op right, fun u y hy => ?_⟩
      have hleft := Expr.Reads.chain hsign hop (hread u y hy) hr
      rw [List.append_assoc, List.cons_append] at hleft
      exact hleft
    · obtain ⟨around, hread⟩ := hr.exists_around hrs ht
      refine ⟨.right left op around, fun u y hy => ?_⟩
      have hright := Expr.Reads.chain hsign hop hl (hread u y hy)
      rw [← List.cons_append, ← List.append_assoc] at hright
      exact hright
  | .part hphrase h => by
    obtain ⟨around, hread⟩ := h.exists_around hall ht
    exact ⟨around, fun u y hy => .part hphrase (hread u y hy)⟩
  | .sign hop h => by
    have hsign := Token.kind_ne_of_isEnclosed ht rfl (TokenKind.not_isEnclosed hop)
    obtain ⟨mid, rfl, hbehind⟩ := Token.mem_tail_of_cons_eq hall hsign
    obtain ⟨around, hread⟩ := h.exists_around hbehind ht
    exact ⟨.unary _ around, fun u y hy => .sign hop (hread u y hy)⟩
  | .least hminus hinteger _ => by
    obtain ⟨mid, rfl, hbehind⟩ :=
      Token.mem_tail_of_cons_eq hall (Token.kind_ne_of_isEnclosed ht hminus (by decide))
    obtain ⟨mid, rfl, hnil⟩ :=
      Token.mem_tail_of_cons_eq hbehind (Token.kind_ne_of_isEnclosed ht hinteger (by decide))
    simp at hnil
  | .unary h => by
    obtain ⟨around, hread⟩ := h.exists_around hall ht
    exact ⟨around, fun u y hy => .unary (hread u y hy)⟩
  | .integer hkind hvalue => Expr.Around.exists_here hall
  | .dice hkind hterm => Expr.Around.exists_here hall
  | .name hkind => Expr.Around.exists_here hall
  | .string hkind => Expr.Around.exists_here hall
  | .template hkind hsplits h => Expr.Around.exists_here hall
  | .paren hleft hright h => by
    have hright' := Token.kind_ne_of_isEnclosed ht hright (by decide)
    rcases Token.mem_parts_of_append_cons_eq hall hright' with ⟨mid, hfront, rfl⟩ | ⟨mid, rfl, hnil⟩
    · obtain ⟨before, rfl, hinside⟩ :=
        Token.mem_tail_of_cons_eq hfront (Token.kind_ne_of_isEnclosed ht hleft (by decide))
      obtain ⟨around, hread⟩ := h.exists_around hinside ht
      refine ⟨.paren around, fun u y hy => ?_⟩
      have hparen := Expr.Reads.paren hleft hright (hread u y hy)
      simp only [List.append_assoc, List.cons_append] at hparen ⊢
      exact hparen
    · simp at hnil

/-- The same of a script. -/
theorem Script.Reads.exists_around {phrase : Phrase} {all : List Token} {s : Script}
    (h : Script.Reads phrase all s) {ts us : List Token} {t : Token} (hall : all = ts ++ t :: us)
    (ht : t.kind.IsEnclosed) :
    ∃ around, Script.Around.ReadFrom around phrase ts us :=
  match h with
  | .program h => by
    obtain ⟨around, hread⟩ := h.exists_around hall ht
    exact ⟨around, fun u y hy => .program (hread u y hy)⟩
  | .trailing hsemicolon h => by
    have hsemicolon' := Token.kind_ne_of_isEnclosed ht hsemicolon (by decide)
    rcases Token.mem_parts_of_append_cons_eq hall hsemicolon' with ⟨mid, hts, rfl⟩ | ⟨mid, rfl, hnil⟩
    · obtain ⟨around, hread⟩ := h.exists_around hts ht
      refine ⟨around, fun u y hy => ?_⟩
      have htrailing := Script.Reads.trailing hsemicolon (hread u y hy)
      rw [List.append_assoc, List.cons_append] at htrailing
      exact htrailing
    · simp at hnil
  | .item h => by
    obtain ⟨around, hread⟩ := h.exists_around hall ht
    exact ⟨.first around [], fun u y hy => .item (hread u y hy)⟩
  | @Script.Reads.sequence _ _ _ before e hsemicolon hl hr => by
    have hsemicolon' := Token.kind_ne_of_isEnclosed ht hsemicolon (by decide)
    rcases Token.mem_parts_of_append_cons_eq hall hsemicolon' with ⟨mid, hls, rfl⟩ | ⟨mid, rfl, hrs⟩
    · obtain ⟨around, hread⟩ := hl.exists_around hls ht
      refine ⟨around.snoc e, fun u y hy => ?_⟩
      have hsequence := Script.Reads.sequence hsemicolon (hread u y hy) hr
      rw [List.append_assoc, List.cons_append] at hsequence
      rw [around.fill_snoc]
      exact hsequence
    · obtain ⟨around, hread⟩ := hr.exists_around hrs ht
      refine ⟨.last before around, fun u y hy => ?_⟩
      have hsequence := Script.Reads.sequence hsemicolon hl (hread u y hy)
      rw [← List.cons_append, ← List.append_assoc] at hsequence
      rw [Script.Around.fill_last]
      exact hsequence

/-! ## Source texts -/

namespace Script

theorem Reads.ofTokens?_eq {ts : List Token} {s : Script} (h : Script.Reads .program ts s)
    (hformed : ∀ t ∈ ts, t.WellFormed) : ofTokens? ts = some s := by
  obtain ⟨p, hrun, -, hfinish⟩ := h.run hformed
  rw [ofTokens?, hrun]
  exact toOption_eq_some.2 (hfinish 0)

/-- In a text that is a script, a string or a template can be replaced by another one. -/
theorem exists_around {start : Nat} {source : List Char} {script : Script}
    (h : read start source = .ok script) {t : Token} (ht : t ∈ Token.scan start source)
    (hkind : t.kind.IsEnclosed) {before after : List Char} (hsource : source = before ++ (t.text ++ after))
    (hstart : t.start = start + width before) :
    ∃ around : Script.Around, ∀ u x, u.kind.IsEnclosed → u.text ∈ u.kind.pattern →
      Expr.Reads .atom [u] x → read start (before ++ (u.text ++ after)) = .ok (around.fill x) := by
  subst hsource
  have hreads := read_eq_ok_iff.1 h
  have hformed : ∀ u ∈ Token.scan start (before ++ (t.text ++ after)), u.WellFormed := fun u hu =>
    Token.wellFormed_of_mem_scan hu
  obtain ⟨us, vs, hscan, hreplace⟩ := Token.exists_scan_replace (isProper_of_read h) ht hstart
  rw [hscan] at hformed
  obtain ⟨around, hread⟩ := hreads.exists_around hscan hkind
  refine ⟨around, fun u x hu htext hx => ?_⟩
  rw [← toOption_eq_some, toOption_read, ofTokens?_congr (hreplace u hu htext)]
  refine (hread u x hx).ofTokens?_eq ?_
  obtain ⟨hus, hvs⟩ := List.forall_mem_append.1 hformed
  refine List.forall_mem_append.2 ⟨hus, List.forall_mem_cons.2 ⟨?_, (List.forall_mem_cons.1 hvs).2⟩⟩
  intro hinteger
  rw [hinteger] at hu
  exact absurd hu (by decide)

/-! ## Scripts inside templates -/

/-- A template in a script has been read. -/
theorem exists_readBody_of_mem_scan {start : Nat} {source : List Char} {script : Script}
    (h : read start source = .ok script) {t : Token} (ht : t ∈ Token.scan start source)
    (hkind : t.kind = .template) : ∃ segments, Segment.readBody (t.start + 1) t.body = .ok segments := by
  obtain ⟨ls, rs, hscan⟩ := List.append_of_mem ht
  have haccepted := (read_eq_ok_iff.1 h).allAccepted ls t rs hscan
  rw [Token.Accepted, hkind] at haccepted
  obtain ⟨pieces, hsplits, hscripts⟩ := haccepted
  obtain ⟨segments, hsegments⟩ := hsplits.reads hscripts
  exact ⟨segments, Segment.readBody_eq_ok_iff.2 ⟨pieces, hsplits, hsegments⟩⟩

/-- A script inside a template has no backtick. -/
theorem Within.eq_or_templateMark_notMem {start here : Nat} {source text : List Char}
    (h : Within start source here text) :
    (here = start ∧ text = source) ∨ templateMark ∉ text := by
  cases h with
  | self => exact .inl ⟨rfl, rfl⟩
  | @template _ _ t place inner _ _ ht hkind hcode h =>
    have hinner : templateMark ∉ inner :=
      (Piece.placed_of_mem_ofBody hcode).standsAt.notMem (Token.text_eq_backticked ht hkind).2
    rcases h.enclosed with ⟨-, rfl⟩ | hplaced
    · exact .inr hinner
    · exact .inr (hplaced.standsAt.notMem hinner)

/-- In a text that is a script, a script between the braces of a template can be replaced by another one without
a backtick, which would end the template. -/
theorem exists_around_code {start here : Nat} {source inner : List Char} {script : Script}
    (h : read start source = .ok script) {t : Token} (ht : t ∈ Token.scan start source)
    (hkind : t.kind = .template) (hcode : .code here inner ∈ Piece.ofBody (t.start + 1) t.body) :
    ∃ before after, ∃ around : Script.Around, ∃ ahead script' behind,
      source = before ++ (inner ++ after) ∧ here = start + width before ∧ read here inner = .ok script' ∧
      ∀ other s, read here other = .ok s → templateMark ∉ other →
        read start (before ++ (other ++ after)) =
          .ok (around.fill (.template (ahead ++ .code s :: behind))) := by
  obtain ⟨before, after, hsource, hstart⟩ := Token.standsAt_of_mem_scan ht
  obtain ⟨htext, hmark⟩ := Token.text_eq_backticked ht hkind
  obtain ⟨segments, hsegments⟩ := exists_readBody_of_mem_scan h ht hkind
  obtain ⟨front, back, ahead, script', behind, hbody, hhere, hscript, -, hinside⟩ :=
    Segment.exists_around_code hsegments hcode
  obtain ⟨around, hread⟩ := exists_around h ht (.inr hkind) hsource hstart
  have hsplit : ∀ cs, before ++ (backticked (front ++ (cs ++ back)) ++ after) =
      (before ++ templateMark :: front) ++ (cs ++ (back ++ templateMark :: after)) := by
    simp [backticked]
  refine ⟨before ++ templateMark :: front, back ++ templateMark :: after, around, ahead, script', behind,
    ?_, ?_, hscript, fun other s hother hmark' => ?_⟩
  · rw [← hsplit, hsource, htext, hbody]
  · have hone : templateMark.utf8Size = 1 := rfl
    rw [hhere, hstart, width_append, width_cons]
    omega
  · have hbody' : templateMark ∉ front ++ (other ++ back) := by
      rw [hbody] at hmark
      simp only [List.mem_append, not_or] at hmark ⊢
      exact ⟨hmark.1, hmark', hmark.2.2⟩
    rw [← hsplit]
    exact hread _ _ (.inr rfl) (backticked_mem_pattern hbody')
      (Expr.reads_backticked (hinside other s hother hmark'))

/-- In a text that is a script, a string or a template of a script inside it can be replaced by another one
without a backtick.  The induction goes from the script inside out to the whole. -/
theorem exists_around_of_within {start here : Nat} {source text : List Char} {script : Script}
    (hwithin : Within start source here text) (h : read start source = .ok script) {t : Token}
    (ht : t ∈ Token.scan here text) (hkind : t.kind.IsEnclosed) :
    ∃ before after, ∃ around : Script.Around, source = before ++ (t.text ++ after) ∧
      t.start = start + width before ∧
      ∀ u x, templateMark ∉ u.text → u.kind.IsEnclosed → u.text ∈ u.kind.pattern →
        Expr.Reads .atom [u] x → read start (before ++ (u.text ++ after)) = .ok (around.fill x) := by
  induction hwithin generalizing script with
  | self =>
    obtain ⟨before, after, hsource, hstart⟩ := Token.standsAt_of_mem_scan ht
    obtain ⟨around, hread⟩ := exists_around h ht hkind hsource hstart
    exact ⟨before, after, around, hsource, hstart, fun u x _ => hread u x⟩
  | template htemplate hbody hcode _ ih =>
    obtain ⟨before, after, outer, ahead, script', behind, rfl, rfl, hscript, hwhole⟩ :=
      exists_around_code h htemplate hbody hcode
    obtain ⟨front, back, around, rfl, hstart, hread⟩ := ih hscript ht
    have hmark := (Piece.placed_of_mem_ofBody hcode).standsAt.notMem
      (Token.text_eq_backticked htemplate hbody).2
    refine ⟨before ++ front, back ++ after, outer.comp (.template ahead around behind), ?_, ?_, ?_⟩
    · simp only [List.append_assoc]
    · rw [hstart, width_append, Nat.add_assoc]
    · intro u x hu hkind hpattern hx
      have hmark' : templateMark ∉ front ++ (u.text ++ back) := by
        simp only [List.mem_append, not_or] at hmark ⊢
        exact ⟨hmark.1, hu, hmark.2.2⟩
      rw [outer.fill_comp, Expr.Around.fill, ← hwhole _ _ (hread u x hu hkind hpattern hx) hmark']
      simp only [List.append_assoc]

end Script
end Tabletop
