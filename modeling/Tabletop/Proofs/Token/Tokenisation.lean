import Tabletop.Proofs.Token.Scan

/-!
# Scanning is the tokenisation by the longest match

`Token.Tokenises` says what the tokens of a text are without saying how they are found: each is the
longest that can stand at its place, their spans are in order and do not overlap, and white space is all
that lies outside them.  Scanning gives these tokens, and no other list of tokens is like this.  So a text
of the pattern of a kind is one token (`scan_eq_singleton`).
-/

namespace Tabletop

open Text

namespace Token

/-- From the byte `start` on, the tokens of a source text are these. -/
structure Tokenises (start : Nat) (source : List Char) (ts : List Token) : Prop where
  /-- A token begins and stops between characters of the source text, is what stands between these
  places, and is the longest that can stand there. -/
  placed : ∀ t ∈ ts, ∃ before after, source = before ++ (t.text ++ after) ∧
    t.start = start + width before ∧ t.Munches (t.text ++ after) ∧
    ∃ c us, t.text = c :: us ∧ ¬isSpace c
  /-- No span is empty. -/
  nonempty : ∀ t ∈ ts, t.start < t.stop
  /-- A span is left before the next one begins. -/
  ordered : ts.Pairwise fun t u => t.stop ≤ u.start
  /-- A byte that is in no span is white space. -/
  covered : ∀ b, start ≤ b → b < start + width source →
    (∃ t ∈ ts, t.start ≤ b ∧ b < t.stop) ∨
      ∃ before c after, source = before ++ c :: after ∧ b = start + width before ∧ isSpace c

theorem width_text_pos {t : Token} {c : Char} {us : List Char} (htext : t.text = c :: us) :
    0 < width t.text := by
  rw [Nat.pos_iff_ne_zero, Ne, width_eq_zero_iff, htext]
  exact List.cons_ne_nil c us

/-- There is only one longest token in front of a text. -/
theorem Munches.unique {t u : Token} {cs : List Char} (ht : t.Munches cs) (hu : u.Munches cs) :
    t.kind = u.kind ∧ t.text = u.text := by
  obtain ⟨htext, ht⟩ := ht
  obtain ⟨hutext, hu⟩ := hu
  rcases ht with ⟨hmem, hlongest⟩ | ⟨hkind, hlength, hnone⟩ <;>
    rcases hu with ⟨hmem', hlongest'⟩ | ⟨hkind', hlength', hnone'⟩
  · rcases hlongest u.kind u.text hutext hmem' with hlt | ⟨heq, hkind⟩ <;>
      rcases hlongest' t.kind t.text htext hmem with hlt' | ⟨heq', hkind'⟩
    · omega
    · rw [heq'] at hlt
      exact absurd hlt (Nat.lt_irrefl _)
    · rw [heq] at hlt'
      exact absurd hlt' (Nat.lt_irrefl _)
    · refine ⟨?_, heq'⟩
      rcases hkind with hkind | ⟨hdice, hid⟩
      · exact hkind.symm
      · rcases hkind' with hkind' | ⟨hdice', _⟩
        · exact hkind'
        · rw [hid] at hdice'
          cases hdice'
  · exact absurd hmem (hnone' t.kind t.text htext)
  · exact absurd hmem' (hnone u.kind u.text hutext)
  · have hfit : t.text.length = u.text.length := by omega
    have hfront := List.prefix_of_prefix_length_le htext hutext (Nat.le_of_eq hfit)
    exact ⟨hkind.trans hkind'.symm, hfront.eq_of_length hfit⟩

/-! ## Scanning is a tokenisation -/

theorem utf8Size_of_isSpace {c : Char} (h : isSpace c) : c.utf8Size = 1 := by
  simp only [isSpace, Bool.or_eq_true, decide_eq_true_eq] at h
  rcases h with ((rfl | rfl) | rfl) | rfl <;> rfl

theorem Scans.start_le {start : Nat} {cs : List Char} {ts : List Token} (h : Scans start cs ts) :
    ∀ t ∈ ts, start ≤ t.start := by
  intro t ht
  obtain ⟨before, _, _, hstart, _⟩ := h.placed ht
  omega

theorem Scans.tokenises {start : Nat} {cs : List Char} {ts : List Token} (h : Scans start cs ts) :
    Tokenises start cs ts where
  placed t ht := h.placed ht
  nonempty t ht := by
    obtain ⟨_, _, _, _, _, c, us, htext, _⟩ := h.placed ht
    have hpos := width_text_pos htext
    rw [stop]
    omega
  ordered := by
    induction h with
    | nil => exact .nil
    | space _ _ ih => exact ih
    | token _ _ _ hrest ih => exact List.pairwise_cons.2 ⟨hrest.start_le, ih⟩
  covered := by
    induction h with
    | nil =>
      intro b hlow hhigh
      simp only [width_nil] at hhigh
      omega
    | @space start c cs ts hc _ ih =>
      intro b hlow hhigh
      have hsize := utf8Size_of_isSpace hc
      by_cases hb : b = start
      · exact .inr ⟨[], c, cs, rfl, hb, hc⟩
      · rw [width_cons] at hhigh
        rcases ih b (by omega) (by omega) with hin | ⟨before, d, after, rfl, hplace, hd⟩
        · exact .inl hin
        · exact .inr ⟨c :: before, d, after, rfl, by rw [hplace, width_cons]; omega, hd⟩
    | @token t c us rest ts htext _ _ _ ih =>
      intro b hlow hhigh
      by_cases hb : b < t.stop
      · exact .inl ⟨t, List.mem_cons_self, hlow, hb⟩
      · rw [width_append, ← Nat.add_assoc] at hhigh
        rcases ih b (by omega) hhigh with ⟨u, hu, hin⟩ | ⟨before, d, after, rfl, hplace, hd⟩
        · exact .inl ⟨u, List.mem_cons_of_mem t hu, hin⟩
        · refine .inr ⟨t.text ++ before, d, after, by simp, ?_, hd⟩
          rw [hplace, stop, width_append, Nat.add_assoc]

/-! ## There is no other tokenisation -/

/-- What lies behind some of the tokens is a tokenisation of what lies behind their text. -/
theorem Tokenises.behind {start : Nat} {us vs : List Char} {ts rest : List Token}
    (h : Tokenises start (us ++ vs) (ts ++ rest)) (hts : ∀ t ∈ ts, t.stop ≤ start + width us)
    (hrest : ∀ t ∈ rest, start + width us ≤ t.start) : Tokenises (start + width us) vs rest where
  placed t ht := by
    obtain ⟨before, after, hsplit, hstart, hmunches, hhead⟩ := h.placed t (List.mem_append_right _ ht)
    have hle := hrest t ht
    obtain ⟨inner, rfl, rfl⟩ := exists_append_of_width_le hsplit (by omega)
    refine ⟨inner, after, rfl, ?_, hmunches, hhead⟩
    rw [hstart, width_append, Nat.add_assoc]
  nonempty t ht := h.nonempty t (List.mem_append_right _ ht)
  ordered := (List.pairwise_append.1 h.ordered).2.1
  covered b hlow hhigh := by
    rcases h.covered b (by omega) (by rw [width_append]; omega) with
      ⟨t, ht, hin⟩ | ⟨before, c, after, hsplit, hplace, hc⟩
    · rcases List.mem_append.1 ht with ht | ht
      · have hle := hts t ht
        omega
      · exact .inl ⟨t, ht, hin⟩
    · obtain ⟨inner, rfl, rfl⟩ := exists_append_of_width_le hsplit (by omega)
      refine .inr ⟨inner, c, after, rfl, ?_, hc⟩
      rw [hplace, width_append, Nat.add_assoc]

/-- A tokenisation of a text that begins with white space. -/
theorem Tokenises.of_space {start : Nat} {c : Char} {cs : List Char} {ts : List Token}
    (h : Tokenises start (c :: cs) ts) (hc : isSpace c) :
    Tokenises (start + c.utf8Size) cs ts := by
  have hsplit : Tokenises start ([c] ++ cs) ([] ++ ts) := h
  have hbehind := hsplit.behind nofun ?_
  · simpa using hbehind
  · intro t ht
    obtain ⟨before, after, hsplit, hstart, _, d, us, htext, hd⟩ := h.placed t ht
    cases before with
    | nil =>
      rw [htext] at hsplit
      rw [(List.cons.inj hsplit).1] at hc
      exact absurd hc hd
    | cons b before =>
      obtain ⟨rfl, _⟩ := List.cons.inj hsplit
      simp only [width_cons, width_nil] at hstart ⊢
      omega

/-- A tokenisation of a text that begins with a token. -/
theorem Tokenises.of_token {t : Token} {c : Char} {us rest : List Char} {ts : List Token}
    (h : Tokenises t.start (t.text ++ rest) ts) (htext : t.text = c :: us) (hc : ¬isSpace c)
    (hmunches : t.Munches (t.text ++ rest)) :
    ∃ ts', ts = t :: ts' ∧ Tokenises t.stop rest ts' := by
  have hpos := width_text_pos htext
  -- the first byte is in a span, and this can only be that of the longest token here
  have ht : t ∈ ts := by
    rcases h.covered t.start (Nat.le_refl _) (by rw [width_append]; omega) with
      ⟨u, hu, hlow, _⟩ | ⟨before, d, after, hsplit, hplace, hd⟩
    · obtain ⟨before, after, hsplit, hstart, humunches, _⟩ := h.placed u hu
      obtain rfl : before = [] := width_eq_zero_iff.1 (by omega)
      rw [List.nil_append] at hsplit
      rw [← hsplit] at humunches
      obtain ⟨hkind, htext'⟩ := hmunches.unique humunches
      obtain rfl : t = u := by
        cases t
        cases u
        simp_all
      exact hu
    · obtain rfl : before = [] := width_eq_zero_iff.1 (by omega)
      rw [htext] at hsplit
      rw [← (List.cons.inj hsplit).1] at hd
      exact absurd hd hc
  cases ts with
  | nil => cases ht
  | cons u ts =>
    have hfirst := (List.pairwise_cons.1 h.ordered).1
    rcases List.mem_cons.1 ht with rfl | ht
    · refine ⟨ts, rfl, ?_⟩
      have hsplit : Tokenises t.start (t.text ++ rest) ([t] ++ ts) := h
      exact hsplit.behind (fun u hu => by rw [List.mem_singleton.1 hu, stop]) hfirst
    · have hle := hfirst t ht
      have hnonempty := h.nonempty u List.mem_cons_self
      obtain ⟨before, _, _, hstart, _⟩ := h.placed u List.mem_cons_self
      omega

theorem Scans.unique {start : Nat} {cs : List Char} {ts ts' : List Token} (h : Scans start cs ts)
    (h' : Tokenises start cs ts') : ts' = ts := by
  induction h generalizing ts' with
  | nil =>
    cases ts' with
    | nil => rfl
    | cons t ts' =>
      obtain ⟨before, after, hsplit, _, _, c, us, htext, _⟩ := h'.placed t List.mem_cons_self
      simp [htext] at hsplit
  | space hc _ ih => exact ih (h'.of_space hc)
  | token htext hc hmunches _ ih =>
    obtain ⟨rest, rfl, hrest⟩ := h'.of_token htext hc hmunches
    rw [ih hrest]

theorem Scans.scan_eq {start : Nat} {cs : List Char} {ts : List Token} (h : Scans start cs ts) :
    scan start cs = ts :=
  h.unique (scans_scan start cs).tokenises

/-- Scanning gives the one tokenisation of a source text: the spans of the tokens are not empty, lie
between characters, are in order and do not overlap; outside them there is only white space; and each
token is the longest text of any pattern that stands at its place, a dice term where it is a name as
well, or a single unknown character where no pattern has a text. -/
theorem tokenises_iff_eq_scan (start : Nat) (source : List Char) (ts : List Token) :
    Tokenises start source ts ↔ ts = scan start source := by
  constructor
  · exact (scans_scan start source).unique
  · rintro rfl
    exact (scans_scan start source).tokenises

/-! ## A text that is one token -/

/-- A text that is a token is the longest one in front of itself. -/
theorem munches_of_mem_pattern {t : Token} (h : t.text ∈ t.kind.pattern) (hname : t.kind ≠ .identifier) :
    t.Munches t.text := by
  refine ⟨List.prefix_rfl, .inl ⟨h, fun kind us hus hkind => ?_⟩⟩
  rcases Nat.lt_or_eq_of_le hus.length_le with hlt | heq
  · exact .inl hlt
  · obtain rfl : us = t.text := hus.eq_of_length heq
    refine .inr ⟨rfl, ?_⟩
    rcases TokenKind.eq_of_mem_pattern h hkind with hsame | hdice | ⟨hid, -⟩
    · exact .inl hsame.symm
    · exact .inr hdice
    · exact absurd hid hname

/-- No token begins with white space. -/
theorem lead?_of_isSpace {c : Char} (h : isSpace c) : TokenKind.lead? c = none := by
  simp only [isSpace, Bool.or_eq_true, decide_eq_true_eq] at h
  rcases h with ((rfl | rfl) | rfl) | rfl <;> decide

/-- A text of the pattern of a kind is one token of that kind, but for names that are dice terms. -/
theorem scan_eq_singleton {t : Token} (h : t.text ∈ t.kind.pattern) (hname : t.kind ≠ .identifier) :
    scan t.start t.text = [t] := by
  obtain ⟨c, us, lead, htext, hlead, -⟩ := TokenKind.exists_lead_of_mem_pattern h
  have hc : ¬isSpace c := by
    intro hspace
    rw [lead?_of_isSpace hspace] at hlead
    cases hlead
  have hmunches := munches_of_mem_pattern h hname
  rw [← List.append_nil t.text] at hmunches
  have hscans : Scans t.start (t.text ++ []) [t] := .token htext hc hmunches .nil
  rw [List.append_nil] at hscans
  exact hscans.scan_eq

end Token
end Tabletop
