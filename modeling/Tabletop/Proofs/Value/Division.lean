import Tabletop.Proofs.Value.Arithmetic

/-!
# Quotient and remainder

A quotient is cut toward zero, and the remainder is what it leaves.  The language refuses both for the same
operands, and where it does not, it can put them together again: the quotient times the divisor lies between
zero and what was divided, so neither this product nor the sum with the remainder is an overflow.
-/

namespace Tabletop

/-- What an operator gives for two numbers. -/
def Arithmetic.onNumbers (op : Arithmetic) (x y : Number) : Except RunError Value :=
  (BinaryOperator.arithmetic op).apply (.number x) (.number y)

/-- A number is its own exact result. -/
theorem exactly_toInt (x : Number) : exactly x.toInt = .ok (.number x) := by
  rw [exactly, Number.ofInt?_toInt]

namespace Arithmetic

/-! ## Numbers that can be divided -/

/-- A remainder lies between zero and what was divided. -/
theorem tmod_between (x y : ℤ) : (0 ≤ x.tmod y ∧ x.tmod y ≤ x) ∨ (x ≤ x.tmod y ∧ x.tmod y ≤ 0) := by
  have habs := Int.natAbs_tmod x y
  have hle := Nat.mod_le x.natAbs y.natAbs
  rcases Int.le_total 0 x with hx | hx
  · have hnonneg := Int.tmod_nonneg y hx
    exact .inl (by omega)
  · have hnonneg := Int.tmod_nonneg y (Int.neg_nonneg_of_nonpos hx)
    rw [Int.neg_tmod] at hnonneg
    exact .inr (by omega)

/-- The remainder is a number, and so is what the quotient takes away. -/
theorem fits_parts (x : Number) (y : ℤ) :
    Number.Fits (x.toInt.tmod y) ∧ Number.Fits (x.toInt.tdiv y * y) := by
  have hx := Number.fits_toInt x
  have hbetween := tmod_between x.toInt y
  have hrestore := Int.tdiv_mul_add_tmod x.toInt y
  unfold Number.Fits at *
  omega

/-- There is a quotient: the divisor is not zero, and the quotient is a number. -/
def HasQuotient (x y : Number) : Prop :=
  y ≠ 0 ∧ Number.Fits (x.toInt.tdiv y.toInt)

theorem exists_div_of_hasQuotient {x y : Number} (h : HasQuotient x y) :
    ∃ q : Number, q.toInt = x.toInt.tdiv y.toInt ∧ div.onNumbers x y = .ok (.number q) := by
  obtain ⟨hzero, hfits⟩ := h
  obtain ⟨q, hq, hexact⟩ := (isExact_exactly _).number hfits
  refine ⟨q, hq, ?_⟩
  show div.compute x y = _
  rw [compute, if_neg hzero, hexact]

theorem exists_rem_of_hasQuotient {x y : Number} (h : HasQuotient x y) :
    ∃ r : Number, r.toInt = x.toInt.tmod y.toInt ∧ rem.onNumbers x y = .ok (.number r) := by
  obtain ⟨q, hquotient⟩ := exists_exactly h.2
  obtain ⟨r, hr, hexact⟩ := (isExact_exactly _).number (fits_parts x y.toInt).1
  refine ⟨r, hr, ?_⟩
  show rem.compute x y = _
  rw [compute, if_neg h.1, hquotient]
  exact hexact

/-- Without a quotient the two operators fail in the same way. -/
theorem exists_error_of_not_hasQuotient {x y : Number} (h : ¬HasQuotient x y) :
    ∃ why, div.onNumbers x y = .error why ∧ rem.onNumbers x y = .error why := by
  by_cases hzero : y = 0
  · refine ⟨.divideByZero, ?_, ?_⟩
    · show div.compute x y = _
      rw [compute, if_pos hzero]
    · show rem.compute x y = _
      rw [compute, if_pos hzero]
  · have hoverflow : exactly (x.toInt.tdiv y.toInt) = .error .overflow :=
      (isExact_exactly _).overflow.2 fun hfits => h ⟨hzero, hfits⟩
    refine ⟨.overflow, ?_, ?_⟩
    · show div.compute x y = _
      rw [compute, if_neg hzero, hoverflow]
    · show rem.compute x y = _
      rw [compute, if_neg hzero, hoverflow]
      rfl

/-! ## Putting them together again -/

/-- The quotient `q` and the remainder `r` of two numbers belong together. -/
structure FitTogether (x y q r : Number) : Prop where
  /-- The language multiplies and adds them to what was divided. -/
  restored : ∃ p : Number, mul.onNumbers q y = .ok (.number p) ∧ add.onNumbers p r = .ok (.number x)
  /-- The remainder is smaller than the divisor. -/
  smaller : |r.toInt| < |y.toInt|
  /-- The remainder is zero or has the sign of what was divided. -/
  sign : r.toInt = 0 ∨ r.toInt.sign = x.toInt.sign

theorem fitTogether_of_toInt {x y q r : Number} (hzero : y ≠ 0) (hq : q.toInt = x.toInt.tdiv y.toInt)
    (hr : r.toInt = x.toInt.tmod y.toInt) : FitTogether x y q r where
  restored := by
    obtain ⟨p, hp, hmul⟩ := (isExact_exactly _).number (fits_parts x y.toInt).2
    refine ⟨p, ?_, ?_⟩
    · show exactly (q.toInt * y.toInt) = _
      rw [hq, hmul]
    · show exactly (p.toInt + r.toInt) = _
      rw [hp, hr, Int.tdiv_mul_add_tmod, exactly_toInt]
  smaller := by
    have hy : y.toInt ≠ 0 := fun h => hzero (Int64.toInt_inj.1 h)
    rw [hr, Int.abs_eq_natAbs, Int.abs_eq_natAbs, Int.natAbs_tmod]
    have hlt := Nat.mod_lt x.toInt.natAbs (Int.natAbs_pos.2 hy)
    omega
  sign := by
    rw [hr, Int.sign_tmod]
    by_cases hdvd : y.toInt ∣ x.toInt
    · exact .inl (Int.tmod_eq_zero_of_dvd hdvd)
    · exact .inr (if_neg hdvd)

/-- Two numbers have a quotient if and only if they have a remainder; if they do not, both are refused for
the same reason.  If they do, the language gives back what was divided as the quotient times the divisor
plus the remainder, which is smaller than the divisor, and is zero or has the sign of what was divided. -/
theorem quotient_remainder (x y : Number) :
    ((∃ v, div.onNumbers x y = .ok v) ↔ ∃ v, rem.onNumbers x y = .ok v) ∧
    ((∃ why, div.onNumbers x y = .error why ∧ rem.onNumbers x y = .error why) ∨
      ∃ q r : Number, div.onNumbers x y = .ok (.number q) ∧ rem.onNumbers x y = .ok (.number r) ∧
        FitTogether x y q r) := by
  by_cases h : HasQuotient x y
  · obtain ⟨q, hq, hdiv⟩ := exists_div_of_hasQuotient h
    obtain ⟨r, hr, hrem⟩ := exists_rem_of_hasQuotient h
    refine ⟨iff_of_true ⟨_, hdiv⟩ ⟨_, hrem⟩, .inr ⟨q, r, hdiv, hrem, ?_⟩⟩
    exact fitTogether_of_toInt h.1 hq hr
  · obtain ⟨why, hdiv, hrem⟩ := exists_error_of_not_hasQuotient h
    refine ⟨?_, .inl ⟨why, hdiv, hrem⟩⟩
    rw [hdiv, hrem]

/-- The least number is cut toward zero and leaves a negative remainder. -/
example : div.onNumbers Int64.minValue 10 = .ok (.number (-922337203685477580)) ∧
    rem.onNumbers Int64.minValue 10 = .ok (.number (-8)) := by
  decide

end Arithmetic
end Tabletop
