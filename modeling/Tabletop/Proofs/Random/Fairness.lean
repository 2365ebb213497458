import Mathlib.Algebra.BigOperators.Group.Finset.Basic
import Mathlib.Order.Interval.Finset.Nat
import Tabletop.Proofs.Random.Draws

/-!
# Fair dice

The products of the words with the number of sides are its multiples, and the accepted ones that give a result
are the multiples in one window, which begins at a multiple of the number of words and is as long as the
zone.  If the zone has room for a whole number of sides, `Draw.Even`, there are equally many multiples in each
of these windows, wherever it begins.  Both zones are of this length: the widest one is the number of words
without its remainder, and the shifted one is the number of sides times a power of two.
-/

namespace Tabletop

open WordSource

namespace Draw

variable {d : Draw} {share : Nat}

/-! ## Results -/

/-- The zone has room for each of the results so many times. -/
structure Even (d : Draw) (share : Nat) : Prop where
  zone_add_one : d.zone + 1 = d.span * share
  zone_lt : d.zone < d.modulus

/-- The first word whose product is not below the window of a result. -/
def firstOf (d : Draw) (r : Nat) : Nat :=
  (r * d.modulus + (d.span - 1)) / d.span

theorem firstOf_le_iff (hspan : 0 < d.span) (r v : Nat) :
    d.firstOf r ≤ v ↔ r * d.modulus ≤ v * d.span := by
  rw [firstOf, Nat.div_le_iff_le_mul_add_pred hspan, Nat.mul_comm d.span v]
  omega

/-- The products of the accepted words that give a result are those in its window. -/
theorem Even.accepts_and_result_iff (h : d.Even share) (r v : Nat) :
    d.accepts v ∧ d.result v = r ↔
      r * d.modulus ≤ v * d.span ∧ v * d.span < r * d.modulus + d.span * share := by
  have hzone := h.zone_add_one
  have hlt := h.zone_lt
  have hsplit := Nat.div_add_mod (v * d.span) d.modulus
  rw [accepts, decide_eq_true_iff, result]
  constructor
  · rintro ⟨haccepts, rfl⟩
    rw [Nat.mul_comm] at hsplit
    omega
  · rintro ⟨hlow, hhigh⟩
    have hresult : v * d.span / d.modulus = r := by
      refine Nat.div_eq_of_lt_le hlow ?_
      rw [Nat.succ_mul]
      omega
    rw [hresult, Nat.mul_comm] at hsplit
    exact ⟨by omega, hresult⟩

/-- The accepted words that give a result come one after the other. -/
theorem Even.mem_words_iff (h : d.Even share) (hspan : 0 < d.span) (r v : Nat) :
    d.accepts v ∧ d.result v = r ↔ d.firstOf r ≤ v ∧ v < d.firstOf r + share := by
  rw [h.accepts_and_result_iff, firstOf_le_iff hspan, Nat.mul_comm d.span share]
  refine and_congr_right fun hlow => ?_
  rcases Nat.lt_or_ge v share with hv | hv
  · have hproduct := Nat.mul_lt_mul_of_pos_right hv hspan
    exact iff_of_true (by omega) (by omega)
  · obtain ⟨u, rfl⟩ := Nat.exists_eq_add_of_le' hv
    have hu := firstOf_le_iff hspan r u
    rw [Nat.add_mul]
    omega

theorem Even.lt_modulus (h : d.Even share) {r v : Nat} (hr : r < d.span)
    (hv : d.accepts v ∧ d.result v = r) : v < d.modulus := by
  have hzone := h.zone_add_one
  have hlt := h.zone_lt
  obtain ⟨-, hhigh⟩ := (h.accepts_and_result_iff r v).1 hv
  have hnext : (r + 1) * d.modulus ≤ d.modulus * d.span := by
    rw [Nat.mul_comm]
    exact Nat.mul_le_mul_left _ hr
  rw [Nat.succ_mul] at hnext
  exact Nat.lt_of_mul_lt_mul_right (a := d.span) (by omega)

/-- Every result has the same number of accepted words. -/
theorem Even.card_result (h : d.Even share) {r : Nat} (hr : r < d.span) :
    ((Finset.range d.modulus).filter fun v => d.accepts v ∧ d.result v = r).card = share := by
  have hspan := Nat.zero_lt_of_lt hr
  have hwords : ((Finset.range d.modulus).filter fun v => d.accepts v ∧ d.result v = r) =
      Finset.Ico (d.firstOf r) (d.firstOf r + share) := by
    ext v
    rw [Finset.mem_filter, Finset.mem_range, Finset.mem_Ico, ← h.mem_words_iff hspan]
    exact and_iff_right_of_imp (h.lt_modulus hr)
  rw [hwords, Nat.card_Ico, Nat.add_sub_cancel_left]

theorem result_lt {v : Nat} (hspan : 0 < d.span) (hv : v < d.modulus) : d.result v < d.span := by
  rw [result, Nat.div_lt_iff_lt_mul (Nat.zero_lt_of_lt hv), Nat.mul_comm]
  exact Nat.mul_lt_mul_of_pos_left hv hspan

theorem Even.card_accepts (h : d.Even share) (hspan : 0 < d.span) :
    ((Finset.range d.modulus).filter fun v => d.accepts v).card = d.span * share := by
  have hresults : ∀ v ∈ (Finset.range d.modulus).filter fun v => d.accepts v,
      d.result v ∈ Finset.range d.span := by
    intro v hv
    rw [Finset.mem_filter, Finset.mem_range] at hv
    exact Finset.mem_range.2 (result_lt hspan hv.1)
  rw [Finset.card_eq_sum_card_fiberwise hresults]
  have hshares : ∀ r ∈ Finset.range d.span,
      (((Finset.range d.modulus).filter fun v => d.accepts v).filter (d.result · = r)).card = share := by
    intro r hr
    rw [Finset.filter_filter]
    exact h.card_result (Finset.mem_range.1 hr)
  rw [Finset.sum_congr rfl hshares, Finset.sum_const, Finset.card_range, Nat.nsmul_eq_mul]

/-! ## Faces -/

/-- A draw is a fair die: all its faces are shown by equally many of the accepted words. -/
structure Fair (d : Draw) (sides : Quantity) (share : Nat) : Prop where
  /-- The face is the high part of the product of the word with the number of sides, counted from one. -/
  face_eq : ∀ v < 2 ^ 32, (d.face v).toNat = 1 + v * sides.val / 2 ^ 32
  /-- Only faces of the die are shown. -/
  face_range : ∀ v < 2 ^ 32, 1 ≤ (d.face v).toNat ∧ (d.face v).toNat ≤ sides.val
  /-- So many words are accepted. -/
  card_accepts : ((Finset.range (2 ^ 32)).filter fun v => d.accepts v).card = sides.val * share
  /-- Every face of the die comes from equally many of them. -/
  card_face : ∀ face, 1 ≤ face → face ≤ sides.val →
    ((Finset.range (2 ^ 32)).filter fun v => d.accepts v ∧ (d.face v).toNat = face).card = share

theorem Even.fair {sides : Quantity} (h : d.Even share) (hmodulus : d.modulus = 2 ^ 32)
    (hspan : d.span = sides.val) : d.Fair sides share := by
  have hpos : 0 < d.span := hspan ▸ sides.pos
  have hface : ∀ v < 2 ^ 32, (d.face v).toNat = 1 + d.result v := by
    intro v hv
    have hresult : d.result v < d.span := result_lt hpos (hmodulus ▸ hv)
    have hlt := sides.lt
    rw [face, faceOf, UInt32.toNat_ofNat_of_lt' (by simp only [UInt32.size]; omega)]
  refine ⟨fun v hv => ?_, fun v hv => ?_, ?_, fun face hlow hhigh => ?_⟩
  · rw [hface v hv, result, hspan, hmodulus]
  · have hresult : d.result v < d.span := result_lt hpos (hmodulus ▸ hv)
    have hshown := hface v hv
    omega
  · rw [← hmodulus, h.card_accepts hpos, hspan]
  · obtain ⟨r, rfl⟩ := Nat.exists_eq_add_of_le hlow
    have hr : r < d.span := by omega
    have hcard := h.card_result hr
    rw [hmodulus] at hcard
    rw [← hcard]
    refine congrArg Finset.card (Finset.filter_congr fun v hv => and_congr_right fun _ => ?_)
    rw [hface v (Finset.mem_range.1 hv), Nat.add_left_cancel_iff]

end Draw

/-! ## The two zones -/

namespace Quantity

variable (sides : Quantity)

/-- How many zeros stand in front of a quantity that is written with 32 binary digits. -/
def leadingZeros : Nat :=
  (BitVec.ofNat 32 sides.val).clz.toNat

theorem leadingZeros_eq : sides.leadingZeros = 31 - sides.val.log2 := by
  have hlt : sides.val < 2 ^ 32 := sides.lt
  have hne : sides.val ≠ 0 := Nat.ne_of_gt sides.pos
  have hval : (BitVec.ofNat 32 sides.val).toNat = sides.val := Nat.mod_eq_of_lt hlt
  have hword : BitVec.ofNat 32 sides.val ≠ 0#32 := by
    intro hzero
    rw [hzero] at hval
    exact hne hval.symm
  have hbound : sides.leadingZeros < 32 := BitVec.lt_def.1 (BitVec.clz_lt_iff_ne_zero.2 hword)
  have hlow := BitVec.two_pow_sub_clz_le_toNat_of_ne_zero (by decide) hword
  have hhigh := @BitVec.toNat_lt_two_pow_sub_clz _ (BitVec.ofNat 32 sides.val)
  rw [hval] at hlow hhigh
  have hlog : sides.val.log2 = 31 - sides.leadingZeros := by
    rw [Nat.log2_eq_iff hne]
    refine ⟨hlow, ?_⟩
    rw [show 31 - sides.leadingZeros + 1 = 32 - sides.leadingZeros by omega]
    exact hhigh
  omega

theorem even_manyDraw : sides.manyDraw.Even (2 ^ 32 / sides.val) := by
  have hmod := Nat.mod_lt (2 ^ 32) sides.pos
  have hlt : sides.val < 2 ^ 32 := sides.lt
  have hsplit := Nat.div_add_mod (2 ^ 32) sides.val
  constructor
  · show 2 ^ 32 - 1 - 2 ^ 32 % sides.val + 1 = sides.val * (2 ^ 32 / sides.val)
    omega
  · show 2 ^ 32 - 1 - 2 ^ 32 % sides.val < 2 ^ 32
    omega

/-- The quantity with its leading zeros shifted out is still a word. -/
theorem shiftLeft_leadingZeros : sides.val <<< sides.leadingZeros = sides.val * 2 ^ sides.leadingZeros ∧
    0 < sides.val <<< sides.leadingZeros ∧ sides.val <<< sides.leadingZeros < 2 ^ 32 := by
  have hpos := Nat.mul_pos sides.pos (Nat.two_pow_pos sides.leadingZeros)
  have hlog : sides.val.log2 < 32 := (Nat.log2_lt (Nat.ne_of_gt sides.pos)).2 sides.lt
  have hval : sides.val < 2 ^ (sides.val.log2 + 1) := Nat.lt_log2_self
  have hhigh := Nat.mul_lt_mul_of_pos_right hval (Nat.two_pow_pos sides.leadingZeros)
  rw [← Nat.pow_add, sides.leadingZeros_eq,
    show sides.val.log2 + 1 + (31 - sides.val.log2) = 32 by omega, ← sides.leadingZeros_eq] at hhigh
  rw [Nat.shiftLeft_eq]
  exact ⟨rfl, hpos, hhigh⟩

theorem zone_oneDraw : sides.oneDraw.zone = sides.val <<< sides.leadingZeros - 1 := by
  rw [leadingZeros_eq]
  rfl

theorem even_oneDraw : sides.oneDraw.Even (2 ^ sides.leadingZeros) := by
  obtain ⟨hproduct, hpos, hlt⟩ := sides.shiftLeft_leadingZeros
  constructor
  · rw [zone_oneDraw, Nat.sub_add_cancel hpos, hproduct]
    rfl
  · rw [zone_oneDraw]
    show _ < 2 ^ 32
    omega

end Quantity

/-! ## Fair throws -/

/-- However many sides a die has, both ways of throwing it are fair: a word is accepted if the low part of its
product with the number of sides is in the zone, every face comes from equally many accepted words, and what
is shown are the faces of the accepted words in order, as many as dice are thrown, with no word used up behind
the last of these. -/
theorem throws_fair (sides : Quantity) :
    (∀ v, sides.manyDraw.accepts v ↔
      v * sides.val % 2 ^ 32 ≤ 2 ^ 32 - 1 - 2 ^ 32 % sides.val) ∧
    (∀ v, sides.oneDraw.accepts v ↔
      v * sides.val % 2 ^ 32 ≤ (sides.val <<< sides.leadingZeros - 1) % 2 ^ 32) ∧
    sides.manyDraw.Fair sides (2 ^ 32 / sides.val) ∧
    sides.oneDraw.Fair sides (2 ^ sides.leadingZeros) ∧
    ∀ {σ : Type} [WordSource σ] (s : σ) (n : Nat),
      (∀ v ∈ words nextNat n s, v < 2 ^ 32) ∧
      (∀ count ≤ (words nextNat n s).countP sides.manyDraw.accepts,
        ∃ m ≤ n, sides.manyDraw.UsesUp nextNat s count m ∧
          throwMany count sides s =
            (((words nextNat m s).filter sides.manyDraw.accepts).map sides.manyDraw.face,
              behind nextNat m s)) ∧
      (0 < (words nextNat n s).countP sides.oneDraw.accepts →
        ∃ m ≤ n, sides.oneDraw.UsesUp nextNat s 1 m ∧
          throwOne sides s =
            (((words nextNat m s).find? sides.oneDraw.accepts).map sides.oneDraw.face,
              behind nextNat m s)) := by
  refine ⟨fun v => decide_eq_true_iff, fun v => ?_, sides.even_manyDraw.fair rfl rfl,
    sides.even_oneDraw.fair rfl rfl, fun s n => ⟨words_nextNat_lt n s,
      fun count => exists_throwMany sides count s, exists_throwOne sides s⟩⟩
  obtain ⟨-, -, hlt⟩ := sides.shiftLeft_leadingZeros
  rw [Nat.mod_eq_of_lt (Nat.lt_of_le_of_lt (Nat.sub_le _ 1) hlt), ← sides.zone_oneDraw]
  exact decide_eq_true_iff

end Tabletop
