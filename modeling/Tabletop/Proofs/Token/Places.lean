import Mathlib.Data.List.Pairwise
import Tabletop.Proofs.Script.Relocation
import Tabletop.Proofs.Token.Spacing

/-!
# Places between tokens

At a place that no token lies across, a text falls into two texts that are scanned for themselves
(`Token.Scans.split`).  There white space can be put in (`Token.map_bare_scan_insert`), and where a string or a
template stands between two such places, another one can be put in its stead (`Token.exists_scan_replace`): the
tokens in front and behind are still the same.
-/

namespace Tabletop

open Text

namespace Token

/-! ## Boundaries -/

/-- No token lies across the place. -/
def IsBoundary (ts : List Token) (place : Nat) : Prop :=
  ∀ t ∈ ts, t.stop ≤ place ∨ place ≤ t.start

instance (ts : List Token) (place : Nat) : Decidable (IsBoundary ts place) :=
  inferInstanceAs (Decidable (∀ t ∈ ts, t.stop ≤ place ∨ place ≤ t.start))

/-- Every token begins at a boundary. -/
theorem isBoundary_start {start : Nat} {cs : List Char} {t : Token} (ht : t ∈ scan start cs) :
    IsBoundary (scan start cs) t.start := by
  have happart : (scan start cs).Pairwise fun t u => t.stop ≤ u.start ∨ u.stop ≤ t.start :=
    (scans_scan start cs).tokenises.ordered.imp .inl
  have hsymm : Std.Symm fun t u : Token => t.stop ≤ u.start ∨ u.stop ≤ t.start := ⟨fun _ _ => Or.symm⟩
  intro u hu
  by_cases heq : u = t
  · exact .inr (Nat.le_of_eq (congrArg Token.start heq.symm))
  · rcases happart.forall hu ht heq with hbefore | hbehind
    · exact .inl hbefore
    · rw [stop] at hbehind
      exact .inr (by omega)

/-- The tokens of two texts side by side, where none lies across the place between them. -/
theorem Scans.split {start : Nat} {source cs ds : List Char} {ts : List Token} (h : Scans start source ts)
    (hsource : source = cs ++ ds) (hplace : IsBoundary ts (start + width cs)) :
    ∃ us vs, ts = us ++ vs ∧ Scans start cs us ∧ Scans (start + width cs) ds vs := by
  induction h generalizing cs with
  | nil =>
    obtain ⟨rfl, rfl⟩ := List.append_eq_nil_iff.1 hsource.symm
    exact ⟨[], [], rfl, .nil, .nil⟩
  | @space start c rest ts hc hrest ih =>
    cases cs with
    | nil =>
      obtain rfl : ds = c :: rest := hsource.symm
      exact ⟨[], ts, rfl, .nil, .space hc hrest⟩
    | cons b cs =>
      obtain ⟨rfl, rfl⟩ := List.cons.inj hsource
      rw [width_cons, ← Nat.add_assoc] at hplace ⊢
      obtain ⟨us, vs, rfl, hus, hvs⟩ := ih rfl hplace
      exact ⟨us, vs, rfl, .space hc hus, hvs⟩
  | @token t c us rest ts htext hc hmunches hrest ih =>
    obtain ⟨ht, hts⟩ := List.forall_mem_cons.1 hplace
    rcases ht with hstop | hstart
    · -- the token is in front of the place
      obtain ⟨inner, rfl, rfl⟩ := exists_append_of_width_le hsource (by rw [stop] at hstop; omega)
      rw [width_append, ← Nat.add_assoc] at hts ⊢
      obtain ⟨ws, vs, rfl, hws, hvs⟩ := ih rfl hts
      have hfront : t.Munches (t.text ++ inner) := by
        rw [← List.append_assoc] at hmunches
        exact hmunches.of_prefix (List.prefix_append _ _) (List.prefix_append _ _)
      exact ⟨t :: ws, vs, rfl, .token htext hc hfront hws, hvs⟩
    · obtain rfl : cs = [] := width_eq_zero_iff.1 (by omega)
      obtain rfl : ds = t.text ++ rest := hsource.symm
      exact ⟨[], t :: ts, rfl, .nil, .token htext hc hmunches hrest⟩

/-! ## The same tokens elsewhere -/

/-- Where a text stands makes no difference to its tokens but their places. -/
theorem map_bare_scan (start : Nat) (cs : List Char) :
    (scan start cs).map bare = (scan 0 cs).map bare := by
  rw [← Nat.zero_add start, scan_add, List.map_map]
  rfl

theorem Scans.map_bare {start start' : Nat} {cs : List Char} {ts : List Token} (h : Scans start cs ts) :
    (scan start' cs).map bare = ts.map bare := by
  rw [← h.scan_eq, map_bare_scan, map_bare_scan start]

/-- White space can be put in where no token is cut in two. -/
theorem map_bare_scan_insert {start : Nat} {cs blanks ds : List Char}
    (hproper : ∀ t ∈ scan start (cs ++ ds), t.kind.IsProper) (hblanks : ∀ c ∈ blanks, isSpace c)
    (hplace : IsBoundary (scan start (cs ++ ds)) (start + width cs)) :
    (scan start (cs ++ (blanks ++ ds))).map bare = (scan start (cs ++ ds)).map bare := by
  obtain ⟨us, vs, hscan, hus, hvs⟩ := (scans_scan start (cs ++ ds)).split rfl hplace
  rw [hscan] at hproper ⊢
  cases blanks with
  | nil => rw [List.nil_append, hscan]
  | cons c blanks =>
    have hc := hblanks c List.mem_cons_self
    have hproper' := (List.forall_mem_append.1 hproper).1
    have hbehind := Scans.spaces hblanks (scans_scan (start + width cs + width (c :: blanks)) ds)
    have hscans : Scans start (cs ++ (c :: blanks ++ ds)) (us ++ scan _ ds) :=
      hus.append hproper' (.inl hc) hbehind
    rw [hscans.scan_eq, List.map_append, List.map_append, hvs.map_bare]

/-- A text between two marks is the longest token, whatever follows. -/
theorem munches_of_isEnclosed {t : Token} (hkind : t.kind.IsEnclosed) (h : t.text ∈ t.kind.pattern)
    (rest : List Char) : t.Munches (t.text ++ rest) := by
  refine ⟨List.prefix_append _ _, .inl ⟨h, fun kind us hus hmem => ?_⟩⟩
  by_cases hlength : us.length ≤ t.text.length
  · -- in front of itself, the text is the longest
    have hfront := List.prefix_of_prefix_length_le hus (List.prefix_append _ _) hlength
    have hname : t.kind ≠ .identifier := by rcases hkind with hkind | hkind <;> rw [hkind] <;> decide
    rcases (munches_of_mem_pattern h hname).2 with hlongest | hunknown
    · exact hlongest.2 kind us hfront hmem
    · exact absurd hmem (hunknown.2.2 kind us hfront)
  · have hreaches : t.text <+: us :=
      List.prefix_of_prefix_length_le (List.prefix_append _ _) hus (by omega)
    obtain ⟨vs, rfl⟩ := hreaches
    have hvs : vs ≠ [] := by
      rintro rfl
      simp at hlength
    exact absurd hmem (TokenKind.notMem_pattern_of_isEnclosed hkind h hvs)

theorem exists_cons_of_isEnclosed {kind : TokenKind} {us : List Char} (hkind : kind.IsEnclosed)
    (h : us ∈ kind.pattern) : ∃ c vs, us = c :: vs ∧ TokenKind.Separates c ∧ ¬isSpace c := by
  rcases hkind with rfl | rfl
  · obtain ⟨body, -, rfl⟩ := mem_enclosed_iff.1 h
    exact ⟨_, _, rfl, by decide, by decide⟩
  · obtain ⟨body, -, rfl⟩ := mem_enclosed_iff.1 h
    exact ⟨_, _, rfl, by decide, by decide⟩

/-- It is also kept apart from what stands in front of it. -/
theorem Scans.append_isEnclosed {start : Nat} {cs ds : List Char} {us vs : List Token} {t : Token}
    (hus : Scans start cs us) (hproper : ∀ u ∈ us, u.kind.IsProper) (hstart : t.start = start + width cs)
    (hkind : t.kind.IsEnclosed) (htext : t.text ∈ t.kind.pattern) (hvs : Scans t.stop ds vs) :
    Scans start (cs ++ (t.text ++ ds)) (us ++ t :: vs) := by
  obtain ⟨c, rest, hcons, hseparates, hc⟩ := exists_cons_of_isEnclosed hkind htext
  have hbehind := Scans.token hcons hc (munches_of_isEnclosed hkind htext ds) hvs
  rw [hstart, hcons] at hbehind
  rw [hcons]
  exact hus.append hproper hseparates hbehind

/-- What stands behind a token, and what in front of it. -/
theorem exists_scan_eq_of_mem_scan {start : Nat} {cs ds : List Char} {t : Token}
    (ht : t ∈ scan start (cs ++ (t.text ++ ds))) (hstart : t.start = start + width cs) :
    ∃ us, scan start (cs ++ (t.text ++ ds)) = us ++ t :: scan t.stop ds ∧ Scans start cs us := by
  have hplace := isBoundary_start ht
  rw [hstart] at hplace
  obtain ⟨us, ws, hscan, hus, hws⟩ := (scans_scan start _).split rfl hplace
  obtain ⟨before, after, hsplit, hbefore, hmunches, c, vs, htext, hc⟩ := (scans_scan start _).placed ht
  -- the token has been found here and nowhere else
  obtain ⟨rfl, hbehind⟩ := append_inj_of_width_eq hsplit (by omega)
  obtain rfl : ds = after := List.append_cancel_left hbehind
  rw [← hstart] at hws
  obtain ⟨rest, rfl, hrest⟩ := hws.tokenises.of_token htext hc hmunches
  rw [(scans_scan t.stop ds).unique hrest] at hscan
  exact ⟨us, hscan, hus⟩

/-- A string or a template can be put in the place of a token. -/
theorem exists_scan_replace {start : Nat} {cs ds : List Char} {t : Token}
    (hproper : ∀ u ∈ scan start (cs ++ (t.text ++ ds)), u.kind.IsProper)
    (ht : t ∈ scan start (cs ++ (t.text ++ ds))) (hstart : t.start = start + width cs) :
    ∃ us vs, scan start (cs ++ (t.text ++ ds)) = us ++ t :: vs ∧
      ∀ u : Token, u.kind.IsEnclosed → u.text ∈ u.kind.pattern →
        (scan start (cs ++ (u.text ++ ds))).map bare = (us ++ u :: vs).map bare := by
  obtain ⟨us, hscan, hus⟩ := exists_scan_eq_of_mem_scan ht hstart
  refine ⟨us, scan t.stop ds, hscan, fun u hkind htext => ?_⟩
  rw [hscan] at hproper
  have hproper' := (List.forall_mem_append.1 hproper).1
  have hscans := @Scans.append_isEnclosed start cs ds us _ { u with start := start + width cs } hus hproper'
    rfl hkind htext (scans_scan _ ds)
  rw [hscans.scan_eq, List.map_append, List.map_cons, List.map_append, List.map_cons, map_bare_scan,
    map_bare_scan t.stop]
  rfl

end Token
end Tabletop
