import Mathlib.Data.Rat.Floor
import Tabletop.Value.Operation

/-!
# Arithmetic is exact or refused

What an operator ought to give is said on whole numbers without bounds, `Arithmetic.exact`: the quotient is
the rational one cut toward zero, and the remainder is what it leaves.  An operator gives this number if it
is a 64-bit number and an overflow if it is not, `IsExact`.

One pair is an exception.  The least number divided by `-1` has the remainder zero, but its quotient is no
64-bit number, and there is no remainder without its quotient.
-/

namespace Tabletop

/-! ## Exact results -/

/-- A rational number cut toward zero. -/
def towardZero (q : ℚ) : ℤ :=
  if 0 ≤ q then ⌊q⌋ else ⌈q⌉

namespace Arithmetic

/-- Whether an operator divides. -/
def Divides (op : Arithmetic) : Prop :=
  op = div ∨ op = rem

/-- What an operator gives on whole numbers without bounds. -/
def exact (op : Arithmetic) (x y : ℤ) : ℤ :=
  match op with
  | add => x + y
  | sub => x - y
  | mul => x * y
  | div => towardZero (x / y)
  | rem => x - y * towardZero (x / y)

end Arithmetic

/-- A whole number is a 64-bit number. -/
def Number.Fits (i : ℤ) : Prop :=
  -2 ^ 63 ≤ i ∧ i < 2 ^ 63

/-- A result is the whole number `i`, or an overflow if this is no 64-bit number. -/
structure IsExact (i : ℤ) (result : Except RunError Value) : Prop where
  number : Number.Fits i → ∃ x : Number, x.toInt = i ∧ result = .ok (.number x)
  overflow : result = .error .overflow ↔ ¬Number.Fits i

theorem Number.fits_toInt (x : Number) : Fits x.toInt :=
  ⟨x.le_toInt, x.toInt_lt⟩

theorem isExact_exactly (i : ℤ) : IsExact i (exactly i) := by
  unfold exactly
  cases hi : Number.ofInt? i with
  | none =>
    have hout : ¬Number.Fits i := by
      have hbounds := Number.ofInt?_eq_none_iff.1 hi
      unfold Number.Fits
      omega
    exact ⟨fun hfits => absurd hfits hout, iff_of_true rfl hout⟩
  | some x =>
    have hx := Number.ofInt?_eq_some_iff.1 hi
    exact ⟨fun _ => ⟨x, hx, rfl⟩, iff_of_false nofun fun hout => hout (hx ▸ Number.fits_toInt x)⟩

theorem exists_exactly {i : ℤ} (h : Number.Fits i) : ∃ v, exactly i = .ok v := by
  obtain ⟨x, _, hx⟩ := (isExact_exactly i).number h
  exact ⟨_, hx⟩

/-! ## Quotients -/

theorem towardZero_neg (q : ℚ) : towardZero (-q) = -towardZero q := by
  unfold towardZero
  rcases lt_trichotomy q 0 with hq | rfl | hq
  · rw [if_pos (by linarith), if_neg (by linarith), Int.floor_neg]
  · simp
  · rw [if_neg (by linarith), if_pos (by linarith), Int.ceil_neg]

theorem towardZero_natCast_div (m n : ℕ) : towardZero (m / n) = (m : ℤ).tdiv n := by
  rw [towardZero, if_pos (by positivity), Rat.floor_natCast_div_natCast, ← Int.ofNat_tdiv]
  rfl

/-- Division cuts the rational quotient toward zero. -/
theorem towardZero_div (x y : ℤ) : towardZero (x / y) = x.tdiv y := by
  obtain ⟨m, rfl | rfl⟩ := Int.eq_nat_or_neg x <;> obtain ⟨n, rfl | rfl⟩ := Int.eq_nat_or_neg y <;>
    simp only [Int.cast_neg, Int.cast_natCast, neg_div, div_neg, towardZero_neg, Int.neg_tdiv,
      Int.tdiv_neg, towardZero_natCast_div]

theorem exact_rem_eq (x y : ℤ) : Arithmetic.rem.exact x y = x.tmod y := by
  rw [Arithmetic.exact, towardZero_div, Int.tmod_def]

/-- Only the least number divided by `-1` is no 64-bit number. -/
theorem fits_tdiv {x y : ℤ} (hx : Number.Fits x) (h : ¬(x = -2 ^ 63 ∧ y = -1)) :
    Number.Fits (x.tdiv y) := by
  have hle := Int.natAbs_tdiv_le_natAbs x y
  unfold Number.Fits at *
  by_cases hy : y.natAbs ≤ 1
  · obtain rfl | rfl | rfl : y = 0 ∨ y = 1 ∨ y = -1 := by omega
    · rw [Int.tdiv_zero]
      decide
    · rwa [Int.tdiv_one]
    · rw [Int.tdiv_neg, Int.tdiv_one]
      omega
  · have hhalf : (x.tdiv y).natAbs ≤ x.natAbs / 2 := by
      rw [Int.natAbs_tdiv]
      exact Nat.div_le_div_left (by omega) (by decide)
    omega

/-! ## The operators -/

/-- Computing with two numbers is exact if an operator that divides has something to divide by, and the
operands are not those of the exception. -/
theorem Arithmetic.isExact_compute {op : Arithmetic} {x y : Number} (hzero : op.Divides → y ≠ 0)
    (hleast : ¬(op = rem ∧ x = Int64.minValue ∧ y = -1)) :
    IsExact (op.exact x.toInt y.toInt) (op.compute x y) := by
  cases op with
  | add => exact isExact_exactly _
  | sub => exact isExact_exactly _
  | mul => exact isExact_exactly _
  | div =>
    rw [exact, towardZero_div, compute, if_neg (hzero (.inl rfl))]
    exact isExact_exactly _
  | rem =>
    have hpair : ¬(x.toInt = -2 ^ 63 ∧ y.toInt = -1) := by
      rintro ⟨hx, hy⟩
      exact hleast ⟨rfl, Int64.toInt_inj.1 hx, Int64.toInt_inj.1 hy⟩
    obtain ⟨quotient, hquotient⟩ := exists_exactly (fits_tdiv (Number.fits_toInt x) hpair)
    rw [exact_rem_eq, compute, if_neg (hzero (.inr rfl)), hquotient]
    exact isExact_exactly _

/-- Of an operand that is a text, an operator makes nothing. -/
theorem BinaryOperator.arithmetic_of_string {op : Arithmetic} {l r : Value}
    (h : l.type = .string ∨ r.type = .string) :
    (arithmetic op).apply l r = .error (.typeMismatch op.text .string) := by
  cases l with
  | string s => rfl
  | number x =>
    cases r with
    | string s => rfl
    | number y => rcases h with h | h <;> cases h

/-- Arithmetic is exact or refused.  Dividing by zero is an error of its own.  Otherwise each operator gives
the exact result if this is a 64-bit number, and an overflow if and only if it is not; but the remainder of
the least number by `-1` is an overflow, as its quotient is.  The exact remainder is zero or has the sign of
what was divided.  An operand that is a text is refused. -/
theorem Arithmetic.exact_or_refused :
    (∀ (op : Arithmetic) (x : Number), op.Divides →
      (BinaryOperator.arithmetic op).apply (.number x) (.number 0) = .error .divideByZero) ∧
    (∀ (op : Arithmetic) (x y : Number), (op.Divides → y ≠ 0) →
      ¬(op = rem ∧ x = Int64.minValue ∧ y = -1) →
      IsExact (op.exact x.toInt y.toInt)
        ((BinaryOperator.arithmetic op).apply (.number x) (.number y))) ∧
    (BinaryOperator.arithmetic rem).apply (.number Int64.minValue) (.number (-1)) =
      .error .overflow ∧
    (∀ x y : ℤ, rem.exact x y = 0 ∨ (rem.exact x y).sign = x.sign) ∧
    (∀ x : Number, IsExact (-x.toInt) (UnaryOperator.minus.apply (.number x)) ∧
      IsExact x.toInt (UnaryOperator.plus.apply (.number x))) ∧
    (∀ (op : Arithmetic) (l r : Value), l.type = .string ∨ r.type = .string →
      (BinaryOperator.arithmetic op).apply l r = .error (.typeMismatch op.text .string)) ∧
    ∀ (op : UnaryOperator) (s : String), op ≠ .not →
      op.apply (.string s) = .error (.typeMismatch op.text .string) := by
  refine ⟨fun op x hop => ?_, fun op x y hzero hleast => isExact_compute hzero hleast, rfl,
    fun x y => ?_, fun x => ⟨isExact_exactly _, ?_⟩, fun op l r => BinaryOperator.arithmetic_of_string,
    fun op s hop => ?_⟩
  · rcases hop with rfl | rfl <;> rfl
  · rw [exact_rem_eq, Int.sign_tmod]
    by_cases hdvd : y ∣ x
    · exact .inl (Int.tmod_eq_zero_of_dvd hdvd)
    · exact .inr (if_neg hdvd)
  · have hplus : UnaryOperator.plus.apply (.number x) = exactly x.toInt := by
      rw [exactly, Number.ofInt?_toInt]
      rfl
    exact hplus ▸ isExact_exactly _
  · cases op with
    | plus => rfl
    | minus => rfl
    | not => exact absurd rfl hop

/-- The remainder of the least number by `-1` is zero, which is a 64-bit number, and it is an overflow. -/
theorem Arithmetic.rem_least_refused :
    rem.exact Int64.minValue.toInt (-1 : Number).toInt = 0 ∧ Number.Fits 0 ∧
      (BinaryOperator.arithmetic rem).apply (.number Int64.minValue) (.number (-1)) =
        .error .overflow ∧
      ¬IsExact (rem.exact Int64.minValue.toInt (-1 : Number).toInt)
        ((BinaryOperator.arithmetic rem).apply (.number Int64.minValue) (.number (-1))) := by
  have hzero : rem.exact Int64.minValue.toInt (-1 : Number).toInt = 0 := by
    rw [exact_rem_eq]
    decide
  have hfits : Number.Fits 0 := by
    unfold Number.Fits
    decide
  refine ⟨hzero, hfits, rfl, fun hexact => ?_⟩
  rw [hzero] at hexact
  exact hexact.overflow.1 rfl hfits

end Tabletop
