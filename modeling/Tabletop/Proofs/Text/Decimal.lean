import Tabletop.Text.Decimal

/-!
# The value of a numeral

`Decimal.value` is the number that digits stand for, without any limit.  Reading a numeral gives its
value exactly where the value does not pass the limit.  A number is written with digits that stand for it, and
behind a minus if it is below zero.
-/

namespace Tabletop.Text.Decimal

/-- The number that digits stand for when they follow digits of the value `value`. -/
def valueFrom (value : Nat) (cs : List Char) : Nat :=
  cs.foldl (fun value c => 10 * value + digitValue c) value

/-- The number that digits stand for. -/
def value (cs : List Char) : Nat :=
  valueFrom 0 cs

theorem le_valueFrom (value : Nat) (cs : List Char) : value ≤ valueFrom value cs := by
  induction cs generalizing value with
  | nil => exact Nat.le_refl value
  | cons c cs ih =>
    have hnext := ih (10 * value + digitValue c)
    show value ≤ valueFrom (10 * value + digitValue c) cs
    omega

/-- Reading stops at the first place where the limit is passed, and no digit after it can help. -/
theorem readDigits_eq {limit value : Nat} {cs : List Char} (hvalue : value ≤ limit)
    (hdigits : ∀ c ∈ cs, c.isDigit) :
    readDigits limit value cs =
      if valueFrom value cs ≤ limit then .ok (valueFrom value cs) else .error .tooLarge := by
  induction cs generalizing value with
  | nil => exact (if_pos hvalue).symm
  | cons c cs ih =>
    have hle := le_valueFrom (10 * value + digitValue c) cs
    show readDigits limit value (c :: cs) =
      if valueFrom (10 * value + digitValue c) cs ≤ limit then
        .ok (valueFrom (10 * value + digitValue c) cs)
      else .error .tooLarge
    rw [readDigits, if_pos (hdigits c List.mem_cons_self)]
    by_cases h : limit < 10 * value + digitValue c
    · simp only [if_pos h]
      rw [if_neg (by omega)]
    · simp only [if_neg h]
      exact ih (by omega) fun d hd => hdigits d (List.mem_cons_of_mem c hd)

/-- The digits of a number stand for it. -/
theorem value_toDigits (n : Nat) : value (Nat.toDigits 10 n) = n :=
  Nat.ofDigitChars_ten_toDigits

/-- A numeral is read as its value, or refused for being too large. -/
theorem read_eq {limit : Nat} {cs : List Char} (hne : cs ≠ []) (hdigits : ∀ c ∈ cs, c.isDigit) :
    read limit cs = if value cs ≤ limit then .ok (value cs) else .error .tooLarge := by
  have hread : read limit cs = readDigits limit 0 cs := by
    unfold read
    split
    · exact absurd rfl hne
    · have hplus := hdigits '+' List.mem_cons_self
      cases hplus
    · rfl
  rw [hread]
  exact readDigits_eq (Nat.zero_le limit) hdigits

end Tabletop.Text.Decimal

namespace Tabletop.Text

theorem toList_toString (n : Nat) : (toString n).toList = Nat.toDigits 10 n :=
  Nat.toList_repr

theorem isDigit_of_mem_digits {n : Nat} : ∀ c ∈ Nat.toDigits 10 n, c.isDigit :=
  fun _ hc => Nat.isDigit_of_mem_toDigits (by decide) (by decide) hc

/-- A whole number as it is written. -/
def ofInt (i : Int) : List Char :=
  (toString i).toList

theorem ofInt_natCast (n : Nat) : ofInt n = Nat.toDigits 10 n :=
  toList_toString n

theorem ofInt_of_neg {i : Int} (h : i < 0) : ofInt i = '-' :: Nat.toDigits 10 i.natAbs := by
  obtain ⟨n, rfl⟩ := Int.eq_negSucc_of_lt_zero h
  show ("-" ++ (n + 1).repr).toList = _
  rw [String.toList_append, Nat.toList_repr]
  rfl

theorem ofInt_of_nonneg {i : Int} (h : 0 ≤ i) : ofInt i = Nat.toDigits 10 i.natAbs := by
  obtain ⟨n, rfl⟩ := Int.eq_ofNat_of_zero_le h
  exact ofInt_natCast n

theorem exists_cons_toDigits (n : Nat) : ∃ c cs, Nat.toDigits 10 n = c :: cs ∧ c.isDigit := by
  obtain ⟨c, cs, hdigits⟩ := List.exists_cons_of_ne_nil (Nat.toDigits_ne_nil (b := 10) (n := n))
  have hc : c ∈ Nat.toDigits 10 n := by
    rw [hdigits]
    exact List.mem_cons_self
  exact ⟨c, cs, hdigits, isDigit_of_mem_digits c hc⟩

/-- A whole number begins with a minus, if it is below zero, or with a digit. -/
theorem exists_cons_ofInt (i : Int) :
    ∃ c cs, ofInt i = c :: cs ∧ (i < 0 ∧ c = '-' ∨ 0 ≤ i ∧ c.isDigit) := by
  rcases Int.lt_or_le i 0 with h | h
  · exact ⟨_, _, ofInt_of_neg h, .inl ⟨h, rfl⟩⟩
  · obtain ⟨c, cs, hdigits, hc⟩ := exists_cons_toDigits i.natAbs
    exact ⟨c, cs, (ofInt_of_nonneg h).trans hdigits, .inr ⟨h, hc⟩⟩

end Tabletop.Text
