import Tabletop.Proofs.Token.Pattern
import Tabletop.Token.Basic

/-!
# What scanning says about a token

Of the kinds that match, the first with the longest match is chosen, so the text of a token is the
longest one in front that is a token of any kind, `Token.Munches`.  `Token.Scans` says what scanning
does on the way through a text: it passes over white space, and it takes tokens that are the longest
where they stand.
-/

namespace Tabletop

open Text

namespace TokenKind

/-! ## The choice of a kind -/

/-- No kind matches further than `n` characters. -/
def NoneBeyond (cs : List Char) (kinds : List TokenKind) (n : Nat) : Prop :=
  ∀ kind ∈ kinds, ∀ m, kind.matchLength? cs = some m → m ≤ n

/-- The kinds in front of the chosen one match less far, and those behind it no further.  The best match
so far stays where no kind matches further. -/
theorem foldl_better_eq_some {cs : List Char} {kinds : List TokenKind}
    {best : Option (TokenKind × Nat)} {kind : TokenKind} {n : Nat}
    (h : kinds.foldl (better cs) best = some (kind, n)) :
    (best = some (kind, n) ∧ NoneBeyond cs kinds n) ∨
      ∃ before after, kinds = before ++ kind :: after ∧ kind.matchLength? cs = some n ∧
        (∀ b, best = some b → b.2 < n) ∧
        (∀ other ∈ before, ∀ m, other.matchLength? cs = some m → m < n) ∧
        NoneBeyond cs after n := by
  induction kinds generalizing best with
  | nil => exact .inl ⟨h, fun _ hmem => absurd hmem List.not_mem_nil⟩
  | cons next kinds ih =>
    rw [List.foldl_cons] at h
    cases hnext : next.matchLength? cs with
    | none =>
      have hbetter : better cs best next = best := by
        unfold better
        rw [hnext]
      rw [hbetter] at h
      rcases ih h with ⟨hbest, hkinds⟩ | ⟨before, after, rfl, hmatch, hbest, hbefore, hafter⟩
      · refine .inl ⟨hbest, List.forall_mem_cons.2 ⟨?_, hkinds⟩⟩
        simp [hnext]
      · refine .inr ⟨next :: before, after, rfl, hmatch, hbest, ?_, hafter⟩
        exact List.forall_mem_cons.2 ⟨by simp [hnext], hbefore⟩
    | some m =>
      -- either the next kind becomes the best one, or the best one matches at least as far
      have hbetter : (better cs best next = some (next, m) ∧ ∀ b, best = some b → b.2 < m) ∨
          ∃ b, best = some b ∧ better cs best next = best ∧ m ≤ b.2 := by
        unfold better
        rw [hnext]
        cases best with
        | none => exact .inl ⟨rfl, nofun⟩
        | some b =>
          by_cases hlt : b.2 < m
          · refine .inl ⟨if_pos hlt, ?_⟩
            intro b' hb'
            rwa [← Option.some.inj hb']
          · exact .inr ⟨b, rfl, if_neg hlt, Nat.not_lt.1 hlt⟩
      rcases hbetter with ⟨hbetter, hm⟩ | ⟨b, rfl, hbetter, hm⟩
      · rw [hbetter] at h
        rcases ih h with ⟨hbest, hkinds⟩ | ⟨before, after, rfl, hmatch, hbest, hbefore, hafter⟩
        · obtain ⟨rfl, rfl⟩ := Prod.mk.inj (Option.some.inj hbest)
          exact .inr ⟨[], kinds, rfl, hnext, hm, by simp, hkinds⟩
        · have hlt : m < n := hbest _ rfl
          refine .inr ⟨next :: before, after, rfl, hmatch, ?_, ?_, hafter⟩
          · exact fun b hb => Nat.lt_trans (hm b hb) hlt
          · exact List.forall_mem_cons.2 ⟨by simpa [hnext] using hlt, hbefore⟩
      · rw [hbetter] at h
        rcases ih h with ⟨hbest, hkinds⟩ | ⟨before, after, rfl, hmatch, hbest, hbefore, hafter⟩
        · obtain rfl : b = (kind, n) := Option.some.inj hbest
          refine .inl ⟨rfl, List.forall_mem_cons.2 ⟨?_, hkinds⟩⟩
          simpa [hnext] using hm
        · have hlt : b.2 < n := hbest b rfl
          refine .inr ⟨next :: before, after, rfl, hmatch, hbest, ?_, hafter⟩
          refine List.forall_mem_cons.2 ⟨?_, hbefore⟩
          have hmn : m < n := by omega
          simpa [hnext] using hmn

theorem foldl_better_eq_none {cs : List Char} {kinds : List TokenKind}
    {best : Option (TokenKind × Nat)} (h : kinds.foldl (better cs) best = none) :
    best = none ∧ ∀ kind ∈ kinds, kind.matchLength? cs = none := by
  induction kinds generalizing best with
  | nil => exact ⟨h, fun _ hmem => absurd hmem List.not_mem_nil⟩
  | cons next kinds ih =>
    obtain ⟨hbetter, hkinds⟩ := ih h
    unfold better at hbetter
    split at hbetter
    · rename_i hnext
      exact ⟨hbetter, List.forall_mem_cons.2 ⟨hnext, hkinds⟩⟩
    · cases hbetter
    · split at hbetter <;> cases hbetter

/-- The kind that is chosen matches, no kind matches further, and a name is chosen only if no dice term
matches as far. -/
theorem longest?_eq_some {cs : List Char} {kind : TokenKind} {n : Nat}
    (h : longest? cs = some (kind, n)) :
    kind.matchLength? cs = some n ∧
      (∀ (other : TokenKind) (m : Nat), other.matchLength? cs = some m → m ≤ n) ∧
      (kind = identifier → ∀ m, dice.matchLength? cs = some m → m < n) := by
  rcases foldl_better_eq_some h with ⟨hnone, _⟩ | ⟨before, after, hkinds, hmatch, _, hbefore, hafter⟩
  · cases hnone
  · refine ⟨hmatch, ?_, ?_⟩
    · intro other m hm
      have hother : other ∈ patterned := by
        refine mem_patterned ?_
        rintro rfl
        cases hm
      rw [hkinds, List.mem_append, List.mem_cons] at hother
      rcases hother with hother | rfl | hother
      · exact Nat.le_of_lt (hbefore other hother m hm)
      · exact Nat.le_of_eq (Option.some.inj (hm.symm.trans hmatch))
      · exact hafter other hother m hm
    · rintro rfl m hm
      refine hbefore dice ?_ m hm
      -- two kinds come before the names, and a dice term is one of them
      rcases before with _ | ⟨first, _ | ⟨second, before⟩⟩
      · cases hkinds
      · cases hkinds
      · obtain ⟨_, hrest⟩ := List.cons.inj hkinds
        rw [← (List.cons.inj hrest).1]
        simp

theorem longest?_eq_none {cs : List Char} (h : longest? cs = none) (kind : TokenKind) :
    kind.matchLength? cs = none := by
  by_cases hkind : kind = unknown
  · rw [hkind]
    rfl
  · exact (foldl_better_eq_none h).2 kind (mem_patterned hkind)

end TokenKind

/-! ## The longest token in front -/

namespace Token

/-- In front of a text, a token is the longest text of any kind; the same text can be that of another
kind only if it is a dice term that is also a name.  Where no kind has a text in front, the token is a
single unknown character. -/
def Munches (t : Token) (cs : List Char) : Prop :=
  t.text <+: cs ∧
    ((t.text ∈ t.kind.pattern ∧
      ∀ (kind : TokenKind) (us : List Char), us <+: cs → us ∈ kind.pattern →
        us.length < t.text.length ∨
          us = t.text ∧ (kind = t.kind ∨ t.kind = .dice ∧ kind = .identifier)) ∨
    (t.kind = .unknown ∧ t.text.length = 1 ∧
      ∀ (kind : TokenKind) (us : List Char), us <+: cs → us ∉ kind.pattern))

/-- The kind that is chosen makes a token that is the longest. -/
theorem munches_of_longest?_eq_some {cs : List Char} {kind : TokenKind} {n start : Nat}
    (h : TokenKind.longest? cs = some (kind, n)) :
    Munches ⟨kind, cs.take n, start⟩ cs ∧ cs.take n ∈ kind.pattern := by
  obtain ⟨hmatch, hothers, hname⟩ := TokenKind.longest?_eq_some h
  have hlongest := kind.isLongest_matchLength? cs
  rw [hmatch] at hlongest
  obtain ⟨⟨us, hfront, hmem, rfl⟩, _⟩ := hlongest
  rw [← List.prefix_iff_eq_take.1 hfront]
  refine ⟨⟨hfront, .inl ⟨hmem, ?_⟩⟩, hmem⟩
  intro other vs hvs hother
  have hbound := other.isLongest_matchLength? cs
  cases hm : other.matchLength? cs with
  | none =>
    rw [hm] at hbound
    exact absurd hother (hbound vs hvs)
  | some m =>
    rw [hm] at hbound
    have hvm : vs.length ≤ m := hbound.2 vs hvs hother
    have hmn : m ≤ us.length := hothers other m hm
    by_cases hlt : vs.length < us.length
    · exact .inl hlt
    · have hfit : vs.length = us.length := by omega
      obtain rfl : vs = us :=
        (List.prefix_of_prefix_length_le hvs hfront (by omega)).eq_of_length hfit
      refine .inr ⟨rfl, ?_⟩
      rcases TokenKind.eq_of_mem_pattern hmem hother with heq | ⟨hdice, hid⟩ | ⟨hid, hdice⟩
      · exact .inl heq.symm
      · exact .inr ⟨hdice, hid⟩
      · subst hdice
        have hshort := hname hid m hm
        omega

/-- Where no kind is chosen, the token is a character that begins none. -/
theorem munches_of_longest?_eq_none {c : Char} {cs : List Char} {start : Nat}
    (h : TokenKind.longest? (c :: cs) = none) : Munches ⟨.unknown, [c], start⟩ (c :: cs) := by
  refine ⟨by simp, .inr ⟨rfl, rfl, fun kind us hus => ?_⟩⟩
  have hnone := kind.isLongest_matchLength? (c :: cs)
  rw [TokenKind.longest?_eq_none h kind] at hnone
  exact hnone us hus

/-! ## A whole text -/

/-- From the byte `start` on, the text consists of white space and of tokens, each the longest where it
stands. -/
inductive Scans : Nat → List Char → List Token → Prop
  | nil {start} : Scans start [] []
  | space {start c cs ts} (hc : isSpace c) (h : Scans (start + c.utf8Size) cs ts) :
    Scans start (c :: cs) ts
  | token {t : Token} {c us rest ts} (htext : t.text = c :: us) (hc : ¬isSpace c)
    (hmunches : t.Munches (t.text ++ rest)) (h : Scans t.stop rest ts) :
    Scans t.start (t.text ++ rest) (t :: ts)

theorem scans_scan (start : Nat) (cs : List Char) : Scans start cs (scan start cs) := by
  fun_induction scan start cs with
  | case1 => exact .nil
  | case2 start c cs hspace ih => exact .space hspace ih
  | case3 start c cs hspace kind length heq text ih =>
    have hmunches : Munches ⟨kind, text, start⟩ (c :: cs) := by
      cases hlongest : TokenKind.longest? (c :: cs) with
      | none =>
        rw [hlongest] at heq
        obtain ⟨rfl, rfl⟩ := Prod.mk.inj heq
        have htext : text = [c] := by simp [text]
        rw [htext]
        exact munches_of_longest?_eq_none hlongest
      | some best =>
        rw [hlongest] at heq
        obtain rfl : best = (kind, length) := heq
        obtain ⟨hmunches, hmem⟩ := @munches_of_longest?_eq_some _ _ _ start hlongest
        obtain ⟨_, _, _, htake, _⟩ := TokenKind.exists_lead_of_mem_pattern hmem
        have htext : text = (c :: cs).take length := by
          cases length with
          | zero => cases htake
          | succ length => simp [text]
        rw [htext]
        exact hmunches
    have hsplit : text ++ cs.drop (length - 1) = c :: cs := by
      simp [text, List.take_append_drop]
    have htoken := Scans.token (t := ⟨kind, text, start⟩) rfl hspace (hsplit ▸ hmunches) ih
    rwa [hsplit] at htoken

/-- A token stands where it is said to stand, and is the longest there. -/
theorem Scans.placed {start : Nat} {cs : List Char} {ts : List Token} {t : Token}
    (h : Scans start cs ts) (ht : t ∈ ts) :
    ∃ before after, cs = before ++ (t.text ++ after) ∧ t.start = start + width before ∧
      t.Munches (t.text ++ after) ∧ ∃ c us, t.text = c :: us ∧ ¬isSpace c := by
  induction h with
  | nil => cases ht
  | @space start c cs ts _ _ ih =>
    obtain ⟨before, after, rfl, hstart, hrest⟩ := ih ht
    refine ⟨c :: before, after, rfl, ?_, hrest⟩
    rw [hstart, width_cons, Nat.add_assoc]
  | @token u c us rest ts htext hc hmunches _ ih =>
    rcases List.mem_cons.1 ht with rfl | ht
    · exact ⟨[], rest, rfl, rfl, hmunches, c, us, htext, hc⟩
    · obtain ⟨before, after, rfl, hstart, hrest⟩ := ih ht
      refine ⟨u.text ++ before, after, by simp, ?_, hrest⟩
      rw [hstart, stop, width_append, Nat.add_assoc]

/-- A token that is an integer consists of digits. -/
def WellFormed (t : Token) : Prop :=
  t.kind = .integer → t.text ≠ [] ∧ ∀ c ∈ t.text, c.isDigit

/-- The text of a token is one of its kind. -/
theorem Munches.mem_pattern {t : Token} {cs : List Char} (h : t.Munches cs)
    (hkind : t.kind ≠ .unknown) : t.text ∈ t.kind.pattern := by
  rcases h.2 with hlongest | hunknown
  · exact hlongest.1
  · exact absurd hunknown.1 hkind

/-- The text of a token that was scanned is one of its kind. -/
theorem mem_pattern_of_mem_scan {start : Nat} {cs : List Char} {t : Token} (ht : t ∈ scan start cs)
    {kind : TokenKind} (hkind : t.kind = kind) (hknown : kind ≠ .unknown) : t.text ∈ kind.pattern := by
  obtain ⟨_, _, _, _, hmunches, _⟩ := (scans_scan start cs).placed ht
  subst hkind
  exact hmunches.mem_pattern hknown

/-- The body of a token is what stands between its first character and its last. -/
theorem body_of_text_eq {t : Token} {c d : Char} {body : List Char} (h : t.text = c :: body ++ [d]) :
    t.body = body := by
  rw [Token.body, h]
  exact List.dropLast_concat

theorem wellFormed_of_mem_scan {start : Nat} {cs : List Char} {t : Token} (ht : t ∈ scan start cs) :
    t.WellFormed := by
  intro hkind
  have hmem := mem_pattern_of_mem_scan ht hkind (by decide)
  obtain ⟨c, us, _, htext⟩ := TokenKind.exists_cons_of_mem_numeral hmem
  refine ⟨?_, TokenKind.isDigit_of_mem_numeral hmem⟩
  rw [htext]
  exact List.cons_ne_nil c us

end Token
end Tabletop
