/-!
# Numbers

A number is a 64-bit two's-complement integer. Arithmetic is carried out in `Int` and brought back
with `Number.ofInt?`, which refuses a result that does not fit, so nothing ever wraps around.
-/

namespace Tabletop

/-- A whole number from `-2^63` to `2^63 - 1`. -/
abbrev Number := Int64

namespace Number

/-- The number equal to `i`, if there is one. -/
def ofInt? (i : Int) : Option Number :=
  if -0x8000000000000000 ≤ i ∧ i < 0x8000000000000000 then some (Int64.ofInt i) else none

/-- The decimal text of a number, with a leading `-` below zero. -/
def text (x : Number) : String :=
  toString x.toInt

theorem ofInt?_eq_some_iff {i : Int} {x : Number} : ofInt? i = some x ↔ x.toInt = i := by
  unfold ofInt?
  split
  · rename_i h
    have hi : (Int64.ofInt i).toInt = i := Int64.toInt_ofInt_of_le h.1 h.2
    constructor
    · intro hx
      rw [← Option.some.inj hx, hi]
    · intro hx
      rw [← hx, Int64.ofInt_toInt]
  · rename_i h
    constructor
    · intro hx
      cases hx
    · intro hx
      exact absurd ⟨hx ▸ x.le_toInt, hx ▸ x.toInt_lt⟩ h

theorem ofInt?_eq_none_iff {i : Int} :
    ofInt? i = none ↔ i < -0x8000000000000000 ∨ 0x8000000000000000 ≤ i := by
  unfold ofInt?
  split <;> simp <;> omega

@[simp]
theorem ofInt?_toInt (x : Number) : ofInt? x.toInt = some x :=
  ofInt?_eq_some_iff.2 rfl

end Number
end Tabletop
