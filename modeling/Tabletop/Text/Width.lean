/-!
# Widths in bytes

Places in a source text are byte offsets into its UTF-8 form, while the text itself is handled as a
list of characters. `width` converts between the two.
-/

namespace Tabletop.Text

/-- The number of bytes that the characters take in UTF-8. -/
def width : List Char → Nat
  | [] => 0
  | c :: cs => c.utf8Size + width cs

@[simp]
theorem width_nil : width [] = 0 := rfl

@[simp]
theorem width_cons (c : Char) (cs : List Char) : width (c :: cs) = c.utf8Size + width cs := rfl

@[simp]
theorem width_append (cs ds : List Char) : width (cs ++ ds) = width cs + width ds := by
  induction cs with
  | nil => simp
  | cons c cs ih => simp [ih, Nat.add_assoc]

/-- Every character takes at least one byte. -/
theorem width_eq_zero_iff {cs : List Char} : width cs = 0 ↔ cs = [] := by
  cases cs with
  | nil => simp
  | cons c cs =>
    have hpos := c.utf8Size_pos
    simp only [width_cons, reduceCtorEq, iff_false]
    omega

/-- Of two parts in front of the same text, the wider one goes on where the other one ends. -/
theorem exists_append_of_width_le {us vs before after : List Char}
    (h : us ++ vs = before ++ after) (hwidth : width us ≤ width before) :
    ∃ inner, before = us ++ inner ∧ vs = inner ++ after := by
  rcases List.append_eq_append_iff.1 h with hinner | ⟨outer, rfl, rfl⟩
  · exact hinner
  · have houter : outer = [] := by
      rw [← width_eq_zero_iff]
      simp only [width_append] at hwidth
      omega
    exact ⟨[], by simp [houter], by simp [houter]⟩

/-- At a byte a text is split in one way only. -/
theorem append_inj_of_width_eq {us vs before after : List Char} (h : us ++ vs = before ++ after)
    (hwidth : width us = width before) : us = before ∧ vs = after := by
  obtain ⟨inner, rfl, rfl⟩ := exists_append_of_width_le h (Nat.le_of_eq hwidth)
  obtain rfl : inner = [] := by
    rw [← width_eq_zero_iff]
    rw [width_append] at hwidth
    omega
  simp

/-- A text made of the characters takes as many bytes as they do. -/
theorem utf8ByteSize_ofList (cs : List Char) : (String.ofList cs).utf8ByteSize = width cs := by
  induction cs with
  | nil => rfl
  | cons c cs ih =>
    have hsplit : String.ofList (c :: cs) = String.singleton c ++ String.ofList cs := by
      rw [String.singleton_eq_ofList, ← String.ofList_append]
      rfl
    rw [hsplit, String.utf8ByteSize_append, String.utf8ByteSize_singleton, ih, width_cons]

end Tabletop.Text
