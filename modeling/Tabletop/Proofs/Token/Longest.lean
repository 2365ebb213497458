import Mathlib.Computability.Language
import Mathlib.Data.List.TakeWhile
import Tabletop.Token.Pattern

/-!
# The longest text of a language in front of a text

Texts of a token are described as regular languages: `*` puts one text behind another, `+` leaves a
choice, `∗` repeats, and `1` is the empty text.  `IsLongest` says how long the longest of them is that
stands in front of a source text.

Matching is greedy and never goes back.  That it finds the longest text all the same is shown for one
construction at a time: where the first of two parts stops short of what it could take, the second part
cannot begin (`IsLongest.mul`).
-/

namespace Tabletop

open Text
open scoped Computability

/-! ## Texts in front of a text -/

/-- The texts of one character that satisfies `p`. -/
def oneChar (p : Char → Prop) : Language Char :=
  {cs | ∃ c, p c ∧ cs = [c]}

/-- Of the texts of a language that stand in front of a text, the longest has the length `n`; or there
are none. -/
def IsLongest (L : Language Char) (cs : List Char) : Option Nat → Prop
  | none => ∀ us, us <+: cs → us ∉ L
  | some n => (∃ us, us <+: cs ∧ us ∈ L ∧ us.length = n) ∧ ∀ us, us <+: cs → us ∈ L → us.length ≤ n

theorem mem_oneChar_mul {p : Char → Prop} {L : Language Char} {us : List Char} :
    us ∈ oneChar p * L ↔ ∃ c vs, p c ∧ vs ∈ L ∧ us = c :: vs := by
  rw [Language.mem_mul]
  constructor
  · rintro ⟨_, ⟨c, hc, rfl⟩, vs, hvs, rfl⟩
    exact ⟨c, vs, hc, hvs, rfl⟩
  · rintro ⟨c, vs, hc, hvs, rfl⟩
    exact ⟨[c], ⟨c, hc, rfl⟩, vs, hvs, rfl⟩

theorem mem_mul_oneChar {p : Char → Prop} {L : Language Char} {us : List Char} :
    us ∈ L * oneChar p ↔ ∃ vs c, vs ∈ L ∧ p c ∧ us = vs ++ [c] := by
  rw [Language.mem_mul]
  constructor
  · rintro ⟨vs, hvs, _, ⟨c, hc, rfl⟩, rfl⟩
    exact ⟨vs, c, hvs, hc, rfl⟩
  · rintro ⟨vs, c, hvs, hc, rfl⟩
    exact ⟨vs, hvs, [c], ⟨c, hc, rfl⟩, rfl⟩

theorem mem_kstar_oneChar {p : Char → Prop} {us : List Char} :
    us ∈ (oneChar p)∗ ↔ ∀ c ∈ us, p c := by
  rw [Language.mem_kstar]
  constructor
  · rintro ⟨parts, rfl, hparts⟩ c hc
    obtain ⟨part, hpart, hc⟩ := List.mem_flatten.1 hc
    obtain ⟨d, hd, rfl⟩ := hparts part hpart
    rwa [List.mem_singleton.1 hc]
  · intro hall
    refine ⟨us.map fun c => [c], (List.flatMap_singleton' us).symm, ?_⟩
    intro part hpart
    obtain ⟨c, hc, rfl⟩ := List.mem_map.1 hpart
    exact ⟨c, hall c hc, rfl⟩

/-- A repetition is empty, or one of its parts stands in front of another repetition. -/
theorem mem_kstar_iff {L : Language Char} {us : List Char} :
    us ∈ L∗ ↔ us = [] ∨ ∃ vs ∈ L, ∃ ws ∈ L∗, vs ++ ws = us := by
  conv => lhs; rw [← Language.one_add_self_mul_kstar_eq_kstar, Language.mem_add, Language.mem_one]
  rw [Language.mem_mul]

/-! ## Greedy matching, one construction at a time -/

namespace IsLongest

variable {L M : Language Char} {cs : List Char}

theorem oneChar_mul {p : Char → Prop} [DecidablePred p] {m : Option Nat} (c : Char)
    (h : IsLongest M cs m) :
    IsLongest (oneChar p * M) (c :: cs) (if p c then m.map (· + 1) else none) := by
  by_cases hc : p c
  · rw [if_pos hc]
    cases m with
    | none =>
      intro us hus hmem
      obtain ⟨d, vs, _, hvs, rfl⟩ := mem_oneChar_mul.1 hmem
      exact h vs (List.cons_prefix_cons.1 hus).2 hvs
    | some m =>
      obtain ⟨⟨us, hus, hmem, rfl⟩, hmax⟩ := h
      refine ⟨⟨c :: us, List.cons_prefix_cons.2 ⟨rfl, hus⟩,
        mem_oneChar_mul.2 ⟨c, us, hc, hmem, rfl⟩, rfl⟩, ?_⟩
      intro vs hvs hmem
      obtain ⟨d, vs, _, hvs', rfl⟩ := mem_oneChar_mul.1 hmem
      have hle := hmax vs (List.cons_prefix_cons.1 hvs).2 hvs'
      simpa using hle
  · rw [if_neg hc]
    intro us hus hmem
    obtain ⟨d, vs, hd, _, rfl⟩ := mem_oneChar_mul.1 hmem
    exact hc ((List.cons_prefix_cons.1 hus).1 ▸ hd)

theorem oneChar_mul_nil {p : Char → Prop} : IsLongest (oneChar p * M) [] none := by
  intro us hus hmem
  obtain ⟨c, vs, _, _, rfl⟩ := mem_oneChar_mul.1 hmem
  simp at hus

/-- Two parts, where the second has nothing to take behind less than what the first one takes. -/
theorem mul {n : Nat} {m : Option Nat} (hL : IsLongest L cs (some n))
    (hM : IsLongest M (cs.drop n) m)
    (h : ∀ us vs, us ∈ L → vs ∈ M → us ++ vs <+: cs → us.length < n → vs = []) :
    IsLongest (L * M) cs (m.map (n + ·)) := by
  obtain ⟨⟨us, ⟨rest, rfl⟩, hus, rfl⟩, hmax⟩ := hL
  rw [List.drop_left] at hM
  -- a text of the product takes all that the first part takes, or the second part takes nothing
  have hsplit : ∀ vs ws, vs ∈ L → ws ∈ M → vs ++ ws <+: us ++ rest →
      (ws = [] ∧ vs.length ≤ us.length) ∨ (vs = us ∧ ws <+: rest) := by
    intro vs ws hvs hws hvw
    have hle : vs.length ≤ us.length := hmax vs ((List.prefix_append vs ws).trans hvw) hvs
    by_cases hlt : vs.length < us.length
    · exact .inl ⟨h vs ws hvs hws hvw hlt, hle⟩
    · have heq : vs = us := by
        refine List.IsPrefix.eq_of_length ?_ (by omega)
        exact List.prefix_of_prefix_length_le ((List.prefix_append vs ws).trans hvw)
          (List.prefix_append us rest) hle
      rw [heq] at hvw
      exact .inr ⟨heq, (List.prefix_append_right_inj us).1 hvw⟩
  cases m with
  | none =>
    intro xs hxs hmem
    obtain ⟨vs, hvs, ws, hws, rfl⟩ := Language.mem_mul.1 hmem
    rcases hsplit vs ws hvs hws hxs with ⟨rfl, _⟩ | ⟨_, hrest⟩
    · exact hM [] List.nil_prefix hws
    · exact hM ws hrest hws
  | some m =>
    obtain ⟨⟨vs, hvs, hvsM, rfl⟩, hmaxM⟩ := hM
    refine ⟨⟨us ++ vs, (List.prefix_append_right_inj us).2 hvs, Language.append_mem_mul hus hvsM,
      List.length_append⟩, ?_⟩
    intro xs hxs hmem
    obtain ⟨ys, hys, ws, hws, rfl⟩ := Language.mem_mul.1 hmem
    show (ys ++ ws).length ≤ us.length + vs.length
    rw [List.length_append]
    rcases hsplit ys ws hys hws hxs with ⟨rfl, hle⟩ | ⟨rfl, hrest⟩
    · simp only [List.length_nil]
      omega
    · have hle := hmaxM ws hrest hws
      omega

theorem mul_none (h : IsLongest L cs none) : IsLongest (L * M) cs none := by
  intro us hus hmem
  obtain ⟨vs, hvs, ws, _, rfl⟩ := Language.mem_mul.1 hmem
  exact h vs ((List.prefix_append vs ws).trans hus) hvs

/-- What stands in front and is shorter than the longest text goes on as that text does. -/
theorem goes_on {n : Nat} {us vs : List Char} {c : Char} (h : IsLongest L cs (some n))
    (hfront : us ++ c :: vs <+: cs) (hlt : us.length < n) : ∃ rest, us ++ c :: rest ∈ L := by
  obtain ⟨⟨ws, hws, hmem, rfl⟩, _⟩ := h
  have hstart : us ++ [c] <+: cs := by
    refine List.IsPrefix.trans ?_ hfront
    simp
  have hinner : us ++ [c] <+: ws := by
    refine List.prefix_of_prefix_length_le hstart hws ?_
    simp only [List.length_append, List.length_singleton]
    omega
  obtain ⟨rest, rfl⟩ := hinner
  rw [List.append_assoc, List.singleton_append] at hmem
  exact ⟨rest, hmem⟩

/-- A part that may be missing. -/
theorem optional {m : Option Nat} (h : IsLongest L cs m) :
    IsLongest (1 + L) cs (some (m.getD 0)) := by
  cases m with
  | none =>
    refine ⟨⟨[], List.nil_prefix, .inl rfl, rfl⟩, ?_⟩
    rintro us hus (rfl | hmem)
    · exact Nat.le_refl 0
    · exact absurd hmem (h us hus)
  | some m =>
    obtain ⟨⟨us, hus, hmem, rfl⟩, hmax⟩ := h
    refine ⟨⟨us, hus, .inr hmem, rfl⟩, ?_⟩
    rintro vs hvs (rfl | hmem)
    · exact Nat.zero_le _
    · exact hmax vs hvs hmem

theorem runLength (p : Char → Bool) (cs : List Char) :
    IsLongest (oneChar (p ·))∗ cs (some (runLength p cs)) := by
  refine ⟨⟨cs.takeWhile p, List.takeWhile_prefix p, ?_, rfl⟩, ?_⟩
  · exact mem_kstar_oneChar.2 fun c hc => List.mem_takeWhile_imp hc
  · rintro us ⟨vs, rfl⟩ hmem
    rw [Tabletop.runLength, List.takeWhile_append_of_pos (mem_kstar_oneChar.1 hmem),
      List.length_append]
    omega

/-- At least one character of a run. -/
theorem positive? (p : Char → Bool) (cs : List Char) :
    IsLongest (oneChar (p ·) * (oneChar (p ·))∗) cs
      (TokenKind.positive? (Tabletop.runLength p cs)) := by
  cases cs with
  | nil => exact oneChar_mul_nil
  | cons c cs =>
    have h := oneChar_mul (p := (p ·)) c (IsLongest.runLength p cs)
    rw [Tabletop.runLength, List.takeWhile_cons]
    split at h
    · rename_i hc
      rw [if_pos hc]
      exact h
    · rename_i hc
      rw [if_neg hc]
      exact h

/-- A fixed text. -/
theorem spellingLength? (spelling cs : List Char) :
    IsLongest {spelling} cs (TokenKind.spellingLength? spelling cs) := by
  rw [TokenKind.spellingLength?]
  by_cases h : spelling.isPrefixOf cs
  · rw [if_pos h]
    refine ⟨⟨spelling, List.isPrefixOf_iff_prefix.1 h, rfl, rfl⟩, ?_⟩
    rintro us _ rfl
    exact Nat.le_refl _
  · rw [if_neg h]
    rintro us hus rfl
    exact h (List.isPrefixOf_iff_prefix.2 hus)

/-- A single character. -/
theorem oneChar (p : Char → Prop) [DecidablePred p] (cs : List Char) :
    IsLongest (oneChar p) cs (if cs.head?.any (p ·) then some 1 else none) := by
  rw [← mul_one (Tabletop.oneChar p)]
  cases cs with
  | nil => exact oneChar_mul_nil
  | cons c cs =>
    have hempty : IsLongest 1 cs (some 0) := by
      refine ⟨⟨[], List.nil_prefix, rfl, rfl⟩, ?_⟩
      rintro us _ rfl
      exact Nat.le_refl 0
    have h := oneChar_mul (p := p) c hempty
    simpa using h

end IsLongest

/-! ## Repetition of parts that cannot be mistaken -/

/-- Of the texts of the language, none begins another one. -/
def IsCode (L : Language Char) : Prop :=
  ∀ us ∈ L, ∀ vs ∈ L, ∀ xs ys, us ++ xs = vs ++ ys → us = vs ∧ xs = ys

namespace IsLongest

variable {L : Language Char} {cs : List Char}

theorem kstar_append {item : List Char} {n : Nat} (hcode : IsCode L) (hitem : item ∈ L)
    (h : IsLongest L∗ cs (some n)) : IsLongest L∗ (item ++ cs) (some (n + item.length)) := by
  obtain ⟨⟨us, hus, hmem, rfl⟩, hmax⟩ := h
  refine ⟨⟨item ++ us, (List.prefix_append_right_inj item).2 hus,
    mem_kstar_iff.2 (.inr ⟨item, hitem, us, hmem, rfl⟩), by simp [Nat.add_comm]⟩, ?_⟩
  rintro vs ⟨rest, hvs⟩ hmem
  rcases mem_kstar_iff.1 hmem with rfl | ⟨part, hpart, ws, hws, rfl⟩
  · exact Nat.zero_le _
  · rw [List.append_assoc] at hvs
    obtain ⟨rfl, hrest⟩ := hcode part hpart item hitem _ _ hvs
    have hle := hmax ws ⟨rest, hrest⟩ hws
    rw [List.length_append]
    omega

theorem kstar_zero (h : ∀ us ∈ L, ¬us <+: cs) : IsLongest L∗ cs (some 0) := by
  refine ⟨⟨[], List.nil_prefix, Language.nil_mem_kstar L, rfl⟩, ?_⟩
  intro us hus hmem
  rcases mem_kstar_iff.1 hmem with rfl | ⟨part, hpart, ws, _, rfl⟩
  · exact Nat.le_refl 0
  · exact absurd ((List.prefix_append part ws).trans hus) (h part hpart)

end IsLongest

/-- A character that begins no part ends a repetition. -/
theorem IsCode.notMem_kstar {L : Language Char} {mark : Char} {us : List Char} (hcode : IsCode L)
    (hmark : ∀ part ∈ L, ∃ c rest, part = c :: rest ∧ c ≠ mark) (hus : us ∈ L∗) (vs : List Char) :
    us ++ mark :: vs ∉ L∗ := by
  obtain ⟨parts, rfl, hparts⟩ := hus
  induction parts with
  | nil =>
    intro hmem
    rcases mem_kstar_iff.1 hmem with hnil | ⟨part, hpart, ws, _, hsplit⟩
    · cases hnil
    · obtain ⟨c, rest, rfl, hc⟩ := hmark part hpart
      exact hc (List.cons.inj hsplit).1
  | cons part parts ih =>
    have hpart := hparts part List.mem_cons_self
    intro hmem
    rw [List.flatten_cons, List.append_assoc] at hmem
    rcases mem_kstar_iff.1 hmem with hnil | ⟨other, hother, ws, hws, hsplit⟩
    · obtain ⟨c, rest, rfl, _⟩ := hmark part hpart
      cases hnil
    · obtain ⟨rfl, rfl⟩ := hcode other hother part hpart _ _ hsplit
      exact ih (fun part hpart => hparts part (List.mem_cons_of_mem _ hpart)) hws

/-! ## Texts between marks -/

theorem mem_enclosed_iff {mark : Char} {L : Language Char} {us : List Char} :
    us ∈ oneChar (· = mark) * L * oneChar (· = mark) ↔ ∃ body ∈ L, us = mark :: body ++ [mark] := by
  constructor
  · intro h
    obtain ⟨vs, _, hvs, rfl, rfl⟩ := mem_mul_oneChar.1 h
    obtain ⟨_, body, rfl, hbody, rfl⟩ := mem_oneChar_mul.1 hvs
    exact ⟨body, hbody, rfl⟩
  · rintro ⟨body, hbody, rfl⟩
    exact mem_mul_oneChar.2 ⟨_, mark, mem_oneChar_mul.2 ⟨mark, body, rfl, hbody, rfl⟩, rfl, rfl⟩

section

variable {mark : Char} {L : Language Char} {run : List Char → Nat}

theorem isLongest_openLength? (hrun : ∀ cs, IsLongest L cs (some (run cs))) (cs : List Char) :
    IsLongest (oneChar (· = mark) * L) cs (TokenKind.openLength? mark run cs) := by
  cases cs with
  | nil => exact .oneChar_mul_nil
  | cons c cs => exact .oneChar_mul c (hrun cs)

theorem isLongest_enclosedLength? (hrun : ∀ cs, IsLongest L cs (some (run cs)))
    (hstop : ∀ us vs, us ∈ L → us ++ mark :: vs ∉ L) (cs : List Char) :
    IsLongest (oneChar (· = mark) * L * oneChar (· = mark)) cs
      (TokenKind.enclosedLength? mark run cs) := by
  rw [mul_assoc]
  cases cs with
  | nil => exact .oneChar_mul_nil
  | cons c cs =>
    -- a closing mark inside what the run takes would be a place where the run goes on behind a mark
    have hinside := (hrun cs).mul (.oneChar (· = mark) (cs.drop (run cs))) ?_
    · have h := IsLongest.oneChar_mul (p := (· = mark)) c hinside
      rw [List.head?_drop] at h
      rw [TokenKind.enclosedLength?]
      have hclose : cs[run cs]?.any (· = mark) = decide (cs[run cs]? = some mark) := by
        cases cs[run cs]? <;> simp
      rw [hclose] at h
      by_cases hc : c = mark <;> by_cases hmark : cs[run cs]? = some mark <;>
        simpa [hc, hmark] using h
    · rintro us _ hus ⟨d, hd, rfl⟩ hfront hlt
      rw [hd] at hfront
      obtain ⟨rest, hmem⟩ := (hrun cs).goes_on hfront hlt
      exact absurd hmem (hstop us rest hus)

end

end Tabletop
