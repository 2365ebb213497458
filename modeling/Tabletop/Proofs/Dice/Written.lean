import Tabletop.Proofs.Text.Decimal
import Tabletop.Proofs.Token.Pattern

/-!
# Dice terms as they are written

A text of the pattern of dice terms has parts, `WrittenTerm`: a count, the sides, and a modifier with its number,
some of which may be missing.  Each part by itself is right or has a fault.  Reading finds the parts in the text
and gives the term that they stand for, or the fault of the first part that has one
(`WrittenTerm.gives_read`).

Nothing else can go wrong, and a modifier is never unknown, whatever the text.
-/

namespace Tabletop

open Text
open scoped Computability

/-! ## The parts of a term -/

/-- What a modifier begins with. -/
inductive ModifierSign where
  | keep
  | keepHighest
  | keepLowest
  | drop
  | dropLowest
  | dropHighest
  deriving DecidableEq, Repr

namespace ModifierSign

/-- How it is written. -/
def text : ModifierSign → List Char
  | keep => ['k']
  | keepHighest => ['k', 'h']
  | keepLowest => ['k', 'l']
  | drop => ['p']
  | dropLowest => ['p', 'l']
  | dropHighest => ['p', 'h']

/-- What it does with `n` dice: keeping is of the highest, and dropping of the lowest, if neither is written. -/
def modifier (n : UInt32) : ModifierSign → Modifier
  | keep | keepHighest => .keep (.highest n)
  | keepLowest => .keep (.lowest n)
  | drop | dropLowest => .drop (.lowest n)
  | dropHighest => .drop (.highest n)

end ModifierSign

/-- A modifier with the digits of its number, if it has any. -/
structure WrittenModifier where
  sign : ModifierSign
  number : List Char
  number_digits : ∀ c ∈ number, c.isDigit

/-- A dice term with the digits of its count, if it has any, and its sides. -/
structure WrittenTerm where
  count : List Char
  delimiter : Char
  sides : List Char
  modifier : Option WrittenModifier
  count_digits : ∀ c ∈ count, c.isDigit
  delimiter_mem : delimiter = 'd' ∨ delimiter = 'D'
  sides_written : sides = ['%'] ∨ sides ≠ [] ∧ ∀ c ∈ sides, c.isDigit

/-- The text of a modifier. -/
def WrittenModifier.text (m : WrittenModifier) : List Char :=
  m.sign.text ++ m.number

/-- The text of a modifier or of the lack of one. -/
def WrittenModifier.textOf (m : Option WrittenModifier) : List Char :=
  (m.map text).getD []

/-- The text of a term. -/
def WrittenTerm.text (w : WrittenTerm) : List Char :=
  w.count ++ w.delimiter :: (w.sides ++ WrittenModifier.textOf w.modifier)

/-! ## The texts of the pattern -/

theorem mem_modifier_iff {us : List Char} :
    us ∈ TokenKind.modifier ↔ ∃ m : WrittenModifier, m.text = us := by
  constructor
  · intro h
    rw [TokenKind.modifier, mul_assoc, mem_oneChar_mul] at h
    obtain ⟨letter, vs, hletter, hvs, rfl⟩ := h
    obtain ⟨selector, hselector, number, hnumber, rfl⟩ := Language.mem_mul.1 hvs
    have hdigits := mem_kstar_oneChar.1 hnumber
    rcases hselector with hnil | ⟨c, hc, hsingle⟩
    · obtain rfl : selector = [] := hnil
      rcases hletter with rfl | rfl
      · exact ⟨⟨.keep, number, hdigits⟩, rfl⟩
      · exact ⟨⟨.drop, number, hdigits⟩, rfl⟩
    · subst hsingle
      rcases hletter with rfl | rfl <;> rcases hc with rfl | rfl
      · exact ⟨⟨.keepHighest, number, hdigits⟩, rfl⟩
      · exact ⟨⟨.keepLowest, number, hdigits⟩, rfl⟩
      · exact ⟨⟨.dropHighest, number, hdigits⟩, rfl⟩
      · exact ⟨⟨.dropLowest, number, hdigits⟩, rfl⟩
  · rintro ⟨⟨sign, number, hdigits⟩, rfl⟩
    have hnumber := mem_kstar_oneChar.2 hdigits
    have hsign : sign.text ∈
        (oneChar fun c => c = 'k' ∨ c = 'p') * (1 + oneChar fun c => c = 'h' ∨ c = 'l') := by
      cases sign with
      | keep | drop => exact mem_oneChar_mul.2 ⟨_, [], by decide, .inl rfl, rfl⟩
      | _ => exact mem_oneChar_mul.2 ⟨_, [_], by decide, .inr ⟨_, by decide, rfl⟩, rfl⟩
    exact Language.append_mem_mul hsign hnumber

/-- The digits of sides, or the sign for a hundred. -/
theorem mem_sides_iff {us : List Char} :
    us ∈ TokenKind.numeral + ({['%']} : Language Char) ↔
      us = ['%'] ∨ us ≠ [] ∧ ∀ c ∈ us, c.isDigit := by
  constructor
  · rintro (h | h)
    · obtain ⟨c, vs, hc, rfl⟩ := TokenKind.exists_cons_of_mem_numeral h
      exact .inr ⟨List.cons_ne_nil c vs, TokenKind.isDigit_of_mem_numeral h⟩
    · exact .inl h
  · rintro (rfl | ⟨hne, hdigits⟩)
    · exact .inr rfl
    · cases us with
      | nil => exact absurd rfl hne
      | cons c us =>
        have hall := List.forall_mem_cons.1 hdigits
        exact .inl (mem_oneChar_mul.2 ⟨c, us, hall.1, mem_kstar_oneChar.2 hall.2, rfl⟩)

/-- The texts of the pattern of dice terms are the written ones. -/
theorem mem_diceTerm_iff {cs : List Char} : cs ∈ TokenKind.diceTerm ↔ ∃ w : WrittenTerm, w.text = cs := by
  rw [TokenKind.diceTerm, mul_assoc, mul_assoc]
  constructor
  · intro h
    obtain ⟨count, hcount, _, hterm, rfl⟩ := Language.mem_mul.1 h
    obtain ⟨delimiter, _, hdelimiter, hrest, rfl⟩ := mem_oneChar_mul.1 hterm
    obtain ⟨sides, hsides, ending, hending, rfl⟩ := Language.mem_mul.1 hrest
    have hparts : ∀ m : Option WrittenModifier, WrittenModifier.textOf m = ending →
        ∃ w : WrittenTerm, w.text = count ++ delimiter :: (sides ++ ending) := by
      rintro m rfl
      exact ⟨⟨count, delimiter, sides, m, mem_kstar_oneChar.1 hcount, hdelimiter,
        mem_sides_iff.1 hsides⟩, rfl⟩
    rcases hending with hnil | hmodifier
    · exact hparts none (Eq.symm hnil)
    · obtain ⟨m, hm⟩ := mem_modifier_iff.1 hmodifier
      exact hparts (some m) hm
  · rintro ⟨w, rfl⟩
    have hending : WrittenModifier.textOf w.modifier ∈ 1 + TokenKind.modifier := by
      cases w.modifier with
      | none => exact .inl rfl
      | some m => exact .inr (mem_modifier_iff.2 ⟨m, rfl⟩)
    have hsides := Language.append_mem_mul (mem_sides_iff.2 w.sides_written) hending
    exact Language.append_mem_mul (mem_kstar_oneChar.2 w.count_digits)
      (mem_oneChar_mul.2 ⟨w.delimiter, _, w.delimiter_mem, hsides, rfl⟩)

/-! ## What the parts stand for -/

/-- The number of digits where one is meant if there are none. -/
def numberOr1 (digits : List Char) : Nat :=
  if digits = [] then 1 else Decimal.value digits

/-- What is wrong with digits that are to be a quantity. -/
def quantityFault? (zero tooLarge : DiceFault) (digits : List Char) : Option DiceFault :=
  if Decimal.value digits = 0 then some zero
  else if Decimal.value digits < 2 ^ 32 then none
  else some tooLarge

theorem quantityFault?_eq_none_iff (zero tooLarge : DiceFault) (digits : List Char) :
    quantityFault? zero tooLarge digits = none ↔ 0 < Decimal.value digits ∧ Decimal.value digits < 2 ^ 32 := by
  unfold quantityFault?
  by_cases hzero : Decimal.value digits = 0
  · simp [hzero]
  · simp [hzero, Nat.pos_of_ne_zero hzero]

/-- What is wrong with the digits of a count. -/
def countFault? (digits : List Char) : Option DiceFault :=
  if digits = [] then none else quantityFault? .zeroDice (.invalidNumber .tooLarge) digits

theorem countFault?_eq_none_iff (digits : List Char) :
    countFault? digits = none ↔ digits = [] ∨ 0 < Decimal.value digits ∧ Decimal.value digits < 2 ^ 32 := by
  unfold countFault?
  split
  · simp_all
  · simp_all [quantityFault?_eq_none_iff]

/-- What is wrong with sides. -/
def sidesFault? (sides : List Char) : Option DiceFault :=
  if sides = ['%'] then none else quantityFault? .zeroSides (.invalidSides .tooLarge) sides

theorem sidesFault?_eq_none_iff (sides : List Char) :
    sidesFault? sides = none ↔
      sides = ['%'] ∨ 0 < Decimal.value sides ∧ Decimal.value sides < 2 ^ 32 := by
  unfold sidesFault?
  split
  · simp_all
  · simp_all [quantityFault?_eq_none_iff]

/-- What is wrong with the digits of the number in a modifier. -/
def numberFault? (digits : List Char) : Option DiceFault :=
  if digits = [] ∨ Decimal.value digits < 2 ^ 32 then none
  else some (.invalidNumber .tooLarge)

theorem numberFault?_eq_none_iff (digits : List Char) :
    numberFault? digits = none ↔ digits = [] ∨ Decimal.value digits < 2 ^ 32 := by
  unfold numberFault?
  split
  · simp_all
  · simp_all

namespace WrittenTerm

/-- The first fault of a written term, from left to right. -/
def fault? (w : WrittenTerm) : Option DiceFault :=
  (countFault? w.count).or ((sidesFault? w.sides).or (w.modifier.bind fun m => numberFault? m.number))

/-- The count is missing or a quantity, the sides are a hundred or a quantity, and the number in the modifier is
missing or not too large. -/
structure Sensible (w : WrittenTerm) : Prop where
  count : w.count = [] ∨ 0 < Decimal.value w.count ∧ Decimal.value w.count < 2 ^ 32
  sides : w.sides = ['%'] ∨ 0 < Decimal.value w.sides ∧ Decimal.value w.sides < 2 ^ 32
  number : ∀ m, w.modifier = some m → m.number = [] ∨ Decimal.value m.number < 2 ^ 32

/-- The sides that are written. -/
def MeansSides (written : List Char) (sides : Sides) : Prop :=
  if written = ['%'] then sides = .percentile
  else ∃ n, sides = .poly n ∧ n.val = Decimal.value written

/-- The modifier that is written. -/
def MeansModifier (written : Option WrittenModifier) (modifier : Option Modifier) : Prop :=
  match written with
  | none => modifier = none
  | some m => ∃ n : UInt32, modifier = some (m.sign.modifier n) ∧ n.toNat = numberOr1 m.number

/-- The term that is written. -/
structure Means (w : WrittenTerm) (term : DiceTerm) : Prop where
  count : term.count.val = numberOr1 w.count
  sides : MeansSides w.sides term.sides
  modifier : MeansModifier w.modifier term.modifier

theorem fault?_eq_none_iff (w : WrittenTerm) : w.fault? = none ↔ w.Sensible := by
  rw [fault?, Option.or_eq_none_iff, Option.or_eq_none_iff, Option.bind_eq_none_iff, countFault?_eq_none_iff,
    sidesFault?_eq_none_iff]
  simp only [numberFault?_eq_none_iff]
  exact ⟨fun ⟨hcount, hsides, hnumber⟩ => ⟨hcount, hsides, hnumber⟩,
    fun h => ⟨h.count, h.sides, h.number⟩⟩

end WrittenTerm

/-! ## Reading -/

/-- Reading gives what is meant, or its fault. -/
def Gives {α : Type} (fault? : Option DiceFault) (Meant : α → Prop) (result : Except DiceFault α) : Prop :=
  match fault? with
  | none => ∃ a, result = .ok a ∧ Meant a
  | some why => result = .error why

section

variable {α : Type} {fault? : Option DiceFault} {Meant : α → Prop} {result : Except DiceFault α}

theorem Gives.imp {Meant' : α → Prop} (h : Gives fault? Meant result) (himp : ∀ a, Meant a → Meant' a) :
    Gives fault? Meant' result := by
  cases fault? with
  | none =>
    obtain ⟨a, hresult, ha⟩ := h
    exact ⟨a, hresult, himp a ha⟩
  | some why => exact h

theorem Gives.eq_error_iff (h : Gives fault? Meant result) (why : DiceFault) :
    result = .error why ↔ fault? = some why := by
  cases fault? with
  | none =>
    obtain ⟨a, rfl, -⟩ := h
    simp
  | some first =>
    obtain rfl := h
    simp

theorem Gives.exists_ok_iff (h : Gives fault? Meant result) :
    (∃ a, result = .ok a) ↔ fault? = none := by
  cases fault? with
  | none =>
    obtain ⟨a, rfl, -⟩ := h
    simp
  | some why =>
    obtain rfl := h
    simp

theorem Gives.meant (h : Gives fault? Meant result) {a : α} (hok : result = .ok a) : Meant a := by
  obtain rfl := h.exists_ok_iff.1 ⟨a, hok⟩
  obtain ⟨b, hb, hmeant⟩ := h
  obtain rfl : b = a := Except.ok.inj (hb.symm.trans hok)
  exact hmeant

/-- One part is read after the other, up to the first fault. -/
theorem Gives.bind {β : Type} {rest? : Option DiceFault} {MeantB : β → Prop} {next : α → Except DiceFault β}
    (h : Gives fault? Meant result) (hnext : ∀ a, Meant a → Gives rest? MeantB (next a)) :
    Gives (fault?.or rest?) MeantB (result >>= next) := by
  cases fault? with
  | none =>
    obtain ⟨a, rfl, ha⟩ := h
    exact hnext a ha
  | some why =>
    obtain rfl := h
    rfl

end

/-- Digits are read up to the greatest 32-bit number. -/
theorem read_maxQuantity {digits : List Char} (hne : digits ≠ []) (hdigits : ∀ c ∈ digits, c.isDigit) :
    Decimal.read maxQuantity digits =
      if Decimal.value digits < 2 ^ 32 then .ok (Decimal.value digits) else .error .tooLarge := by
  rw [Decimal.read_eq hne hdigits]
  simp only [maxQuantity, ← Nat.lt_succ_iff]
  rfl

/-- Makes something of a quantity, where zero is a fault. -/
def ofQuantity {α : Type} (zero : DiceFault) (make : Quantity → α) (n : Nat) : Except DiceFault α :=
  match Quantity.ofNat? n with
  | some q => .ok (make q)
  | none => .error zero

theorem gives_quantity {α : Type} {digits : List Char} (hne : digits ≠ [])
    (hdigits : ∀ c ∈ digits, c.isDigit) (zero : DiceFault) (wrap : Decimal.Fault → DiceFault)
    (make : Quantity → α) :
    Gives (quantityFault? zero (wrap .tooLarge) digits)
      (fun a => ∃ q, a = make q ∧ q.val = Decimal.value digits)
      ((Decimal.read maxQuantity digits).mapError wrap >>= ofQuantity zero make) := by
  rw [read_maxQuantity hne hdigits, quantityFault?]
  rcases Nat.eq_zero_or_pos (Decimal.value digits) with hzero | hpos
  · rw [if_pos hzero, if_pos (by omega), hzero]
    rfl
  · rw [if_neg (Nat.ne_of_gt hpos)]
    by_cases hlt : Decimal.value digits < 2 ^ 32
    · rw [if_pos hlt, if_pos hlt]
      show ∃ a, ofQuantity zero make (Decimal.value digits) = .ok a ∧ _
      rw [ofQuantity, Quantity.ofNat?, dif_pos ⟨hpos, hlt⟩]
      exact ⟨_, rfl, _, rfl, rfl⟩
    · rw [if_neg hlt, if_neg hlt]
      rfl

theorem gives_readCount {digits : List Char} (hdigits : ∀ c ∈ digits, c.isDigit) :
    Gives (countFault? digits) (fun count => count.val = numberOr1 digits) (DiceTerm.readCount digits) := by
  unfold countFault? DiceTerm.readCount numberOr1
  by_cases hne : digits = []
  · simp [hne, Gives]
  · simp only [hne, if_false, List.isEmpty_iff]
    refine (gives_quantity hne hdigits .zeroDice .invalidNumber id).imp ?_
    rintro _ ⟨q, rfl, hq⟩
    exact hq

/-- A fault of the sides as a fault of the term. -/
def ofSidesFault : Decimal.Fault → DiceFault
  | .zero => .zeroSides
  | why => .invalidSides why

theorem readSides_of_ne {sides : List Char} (h : sides ≠ ['%']) :
    DiceTerm.readSides sides =
      (Decimal.read maxQuantity sides).mapError ofSidesFault >>= ofQuantity .zeroSides Sides.poly := by
  rw [DiceTerm.readSides, Sides.read, if_neg h]
  cases Decimal.read maxQuantity sides with
  | error why => cases why <;> rfl
  | ok n =>
    show Except.mapError _ (match Quantity.ofNat? n with
      | some count => .ok (Sides.poly count)
      | none => .error Decimal.Fault.zero) = ofQuantity .zeroSides Sides.poly n
    rw [ofQuantity]
    cases Quantity.ofNat? n <;> rfl

theorem gives_readSides {sides : List Char} (h : sides = ['%'] ∨ sides ≠ [] ∧ ∀ c ∈ sides, c.isDigit) :
    Gives (sidesFault? sides) (WrittenTerm.MeansSides sides) (DiceTerm.readSides sides) := by
  unfold sidesFault? WrittenTerm.MeansSides
  by_cases hpercent : sides = ['%']
  · simp only [hpercent, if_true]
    exact ⟨_, rfl, rfl⟩
  · obtain ⟨hne, hdigits⟩ := h.resolve_left hpercent
    simp only [hpercent, if_false]
    rw [readSides_of_ne hpercent]
    exact gives_quantity hne hdigits .zeroSides ofSidesFault Sides.poly

theorem gives_readNumber {digits : List Char} (hdigits : ∀ c ∈ digits, c.isDigit) :
    Gives (numberFault? digits) (fun n => n.toNat = numberOr1 digits) (Selector.readCount digits) := by
  unfold numberFault? Selector.readCount numberOr1
  by_cases hne : digits = []
  · simp [hne, Gives]
  · simp only [hne, if_false, List.isEmpty_iff, read_maxQuantity hne hdigits, false_or]
    by_cases hlt : Decimal.value digits < 2 ^ 32
    · simp only [hlt, if_true]
      exact ⟨_, rfl, UInt32.toNat_ofNat_of_lt hlt⟩
    · simp only [hlt, if_false]
      rfl

theorem ne_of_isDigit {c d : Char} (hc : c.isDigit) (hd : ¬d.isDigit) : c ≠ d := by
  rintro rfl
  exact hd hc

/-- Digits begin with no letter of a selector. -/
theorem read_selector_digits {digits : List Char} (hdigits : ∀ c ∈ digits, c.isDigit)
    (usual : UInt32 → Selector) : Selector.read usual digits = (Selector.readCount digits).map usual := by
  unfold Selector.read
  split
  · exact absurd (hdigits 'h' List.mem_cons_self) (by decide)
  · exact absurd (hdigits 'l' List.mem_cons_self) (by decide)
  · rfl

/-- What follows the sign of a modifier is its number. -/
theorem readModifier_text (m : WrittenModifier) :
    DiceTerm.readModifier m.text =
      (Selector.readCount m.number).map fun n => some (m.sign.modifier n) := by
  obtain ⟨sign, number, hdigits⟩ := m
  have hread := read_selector_digits hdigits
  cases sign with
  | keep =>
    show ((Selector.read .highest number).map Modifier.keep).map some = _
    rw [hread]
    cases Selector.readCount number <;> rfl
  | drop =>
    show ((Selector.read .lowest number).map Modifier.drop).map some = _
    rw [hread]
    cases Selector.readCount number <;> rfl
  | keepHighest | keepLowest | dropHighest | dropLowest =>
    show (((Selector.readCount number).map _).map _).map some = _
    cases Selector.readCount number <;> rfl

theorem gives_readModifier (m : Option WrittenModifier) :
    Gives (m.bind fun m => numberFault? m.number) (WrittenTerm.MeansModifier m)
      (DiceTerm.readModifier (WrittenModifier.textOf m)) := by
  cases m with
  | none => exact ⟨none, rfl, rfl⟩
  | some m =>
    show Gives (numberFault? m.number) _ (DiceTerm.readModifier m.text)
    rw [readModifier_text, ← Option.or_none (o := numberFault? _)]
    refine (gives_readNumber m.number_digits).bind fun n hn => ?_
    exact ⟨_, rfl, n, rfl, hn⟩

/-- A modifier is all that is left from its first letter on. -/
theorem WrittenModifier.textOf_begins (m : Option WrittenModifier) :
    (textOf m).takeWhile (!DiceTerm.beginsModifier ·) = [] ∧
      (textOf m).dropWhile (!DiceTerm.beginsModifier ·) = textOf m := by
  cases m with
  | none => exact ⟨rfl, rfl⟩
  | some m =>
    obtain ⟨sign, number, _⟩ := m
    cases sign <;> exact ⟨rfl, rfl⟩

namespace WrittenTerm

/-- The parts are found in the text. -/
theorem read_text (w : WrittenTerm) :
    DiceTerm.read w.text = (do
      let count ← DiceTerm.readCount w.count
      let sides ← DiceTerm.readSides w.sides
      let modifier ← DiceTerm.readModifier (WrittenModifier.textOf w.modifier)
      return { count, sides, modifier }) := by
  -- the count has no delimiter and the sides no letter of a modifier, so the first of each is where they end
  have hcount : ∀ c ∈ w.count, !DiceTerm.isDelimiter c := by
    intro c hc
    have hne := @ne_of_isDigit c
    simp [DiceTerm.isDelimiter, hne (w.count_digits c hc)]
  have hsides : ∀ c ∈ w.sides, !DiceTerm.beginsModifier c := by
    intro c hc
    rcases w.sides_written with hpercent | ⟨-, hdigits⟩
    · rw [hpercent, List.mem_singleton] at hc
      subst hc
      rfl
    · have hne := @ne_of_isDigit c
      simp [DiceTerm.beginsModifier, hne (hdigits c hc)]
  have hdelimiter : DiceTerm.isDelimiter w.delimiter := by
    rcases w.delimiter_mem with h | h <;> rw [h] <;> rfl
  have hcountPart : w.text.takeWhile (!DiceTerm.isDelimiter ·) = w.count := by
    rw [text, List.takeWhile_append_of_pos hcount, List.takeWhile_cons_of_neg (by simp [hdelimiter]),
      List.append_nil]
  have hrest : w.text.dropWhile (!DiceTerm.isDelimiter ·) =
      w.delimiter :: (w.sides ++ WrittenModifier.textOf w.modifier) := by
    rw [text, List.dropWhile_append_of_pos hcount, List.dropWhile_cons_of_neg (by simp [hdelimiter])]
  obtain ⟨hnothing, hending⟩ := WrittenModifier.textOf_begins w.modifier
  rw [DiceTerm.read, hrest]
  simp only [hcountPart, List.takeWhile_append_of_pos hsides, List.dropWhile_append_of_pos hsides, hnothing,
    hending, List.append_nil]

theorem gives_read (w : WrittenTerm) : Gives w.fault? w.Means (DiceTerm.read w.text) := by
  rw [read_text]
  -- each part is read only if those before it are right, so the fault is the first one
  refine (gives_readCount w.count_digits).bind fun count hcount => ?_
  refine (gives_readSides w.sides_written).bind fun sides hsides => ?_
  rw [← Option.or_none (o := w.modifier.bind _)]
  refine (gives_readModifier w.modifier).bind fun modifier hmodifier => ?_
  exact ⟨_, rfl, hcount, hsides, hmodifier⟩

theorem read_eq_error_iff (w : WrittenTerm) (why : DiceFault) :
    DiceTerm.read w.text = .error why ↔ w.fault? = some why :=
  w.gives_read.eq_error_iff why

theorem exists_read_iff (w : WrittenTerm) : (∃ term, DiceTerm.read w.text = .ok term) ↔ w.Sensible := by
  rw [← fault?_eq_none_iff]
  exact w.gives_read.exists_ok_iff

theorem means_of_read {w : WrittenTerm} {term : DiceTerm} (h : DiceTerm.read w.text = .ok term) :
    w.Means term :=
  w.gives_read.meant h

end WrittenTerm

/-! ## Faults of parts -/

/-- A fault that a part of a term can have. -/
def DiceFault.OfPart : DiceFault → Prop
  | noDelimiter | unknownModifier _ => False
  | zeroDice | zeroSides | invalidNumber _ | invalidSides _ => True

/-- If something is wrong, then it is wrong with a part of a term. -/
def BlamesPart {α : Type} (result : Except DiceFault α) : Prop :=
  ∀ why, result = .error why → why.OfPart

theorem blamesPart_ok {α : Type} (a : α) : BlamesPart (.ok a) := nofun

theorem blamesPart_error {α : Type} {why : DiceFault} (h : why.OfPart) :
    BlamesPart (.error why : Except DiceFault α) := by
  intro other hother
  cases hother
  exact h

theorem BlamesPart.bind {α β : Type} {result : Except DiceFault α} {next : α → Except DiceFault β}
    (h : BlamesPart result) (hnext : ∀ a, BlamesPart (next a)) : BlamesPart (result >>= next) := by
  cases result with
  | error why => exact blamesPart_error (h why rfl)
  | ok a => exact hnext a

theorem BlamesPart.map {α β : Type} {result : Except DiceFault α} (f : α → β) (h : BlamesPart result) :
    BlamesPart (result.map f) := by
  cases result with
  | error why => exact blamesPart_error (h why rfl)
  | ok a => exact blamesPart_ok _

theorem blamesPart_mapError {α : Type} (wrap : Decimal.Fault → DiceFault) (hwrap : ∀ why, (wrap why).OfPart)
    (result : Except Decimal.Fault α) : BlamesPart (result.mapError wrap) := by
  cases result with
  | error why => exact blamesPart_error (hwrap why)
  | ok a => exact blamesPart_ok a

theorem blamesPart_readCount (cs : List Char) : BlamesPart (DiceTerm.readCount cs) := by
  unfold DiceTerm.readCount
  split
  · exact blamesPart_ok _
  · refine (blamesPart_mapError .invalidNumber (fun _ => trivial) _).bind fun n => ?_
    split
    · exact blamesPart_ok _
    · exact blamesPart_error trivial

theorem blamesPart_readSides (cs : List Char) : BlamesPart (DiceTerm.readSides cs) := by
  refine blamesPart_mapError _ (fun why => ?_) _
  cases why <;> trivial

theorem blamesPart_readNumber (cs : List Char) : BlamesPart (Selector.readCount cs) := by
  unfold Selector.readCount
  split
  · exact blamesPart_ok _
  · exact (blamesPart_mapError .invalidNumber (fun _ => trivial) _).map _

theorem blamesPart_readSelector (usual : UInt32 → Selector) (cs : List Char) :
    BlamesPart (Selector.read usual cs) := by
  unfold Selector.read
  split <;> exact (blamesPart_readNumber _).map _

/-- What is left from the first letter of a modifier on begins with that letter, if anything is left. -/
theorem blamesPart_readModifier (cs : List Char) :
    BlamesPart (DiceTerm.readModifier (cs.dropWhile (!DiceTerm.beginsModifier ·))) := by
  unfold DiceTerm.readModifier
  cases hrest : cs.dropWhile (!DiceTerm.beginsModifier ·) with
  | nil => exact blamesPart_ok _
  | cons c rest =>
    have hbegins : DiceTerm.beginsModifier c := by
      have hhead := List.head?_dropWhile_not (!DiceTerm.beginsModifier ·) cs
      simpa [hrest] using hhead
    simp only [DiceTerm.beginsModifier, Bool.or_eq_true, decide_eq_true_eq] at hbegins
    rcases hbegins with rfl | rfl
    · exact ((blamesPart_readSelector .highest rest).map _).map _
    · exact ((blamesPart_readSelector .lowest rest).map _).map _

/-- A text with a delimiter has parts, and only these can be at fault. -/
theorem read_eq_noDelimiter_or (cs : List Char) :
    DiceTerm.read cs = .error .noDelimiter ∨ BlamesPart (DiceTerm.read cs) := by
  unfold DiceTerm.read
  split
  · exact .inl rfl
  · refine .inr ?_
    refine (blamesPart_readCount _).bind fun count => (blamesPart_readSides _).bind fun sides => ?_
    exact (blamesPart_readModifier _).bind fun modifier => blamesPart_ok _

theorem WrittenTerm.blamesPart_read (w : WrittenTerm) : BlamesPart (DiceTerm.read w.text) := by
  rw [read_text]
  have hmodifier : BlamesPart (DiceTerm.readModifier (WrittenModifier.textOf w.modifier)) := by
    rw [← (WrittenModifier.textOf_begins w.modifier).2]
    exact blamesPart_readModifier _
  refine (blamesPart_readCount _).bind fun count => (blamesPart_readSides _).bind fun sides => ?_
  exact hmodifier.bind fun modifier => blamesPart_ok _

/-- The texts of the pattern of dice terms are those of written terms.  A written term is read if and only if it
is sensible, and then as the term that it means.  Otherwise the first of its faults is reported, which is not the
lack of a delimiter.  That a modifier is unknown is reported for no text at all. -/
theorem DiceTerm.read_written :
    (∀ cs, cs ∈ TokenKind.dice.pattern ↔ ∃ w : WrittenTerm, w.text = cs) ∧
    (∀ w : WrittenTerm,
      ((∃ term, read w.text = .ok term) ↔ w.Sensible) ∧
      (∀ term, read w.text = .ok term → w.Means term) ∧
      (∀ why, read w.text = .error why ↔ w.fault? = some why) ∧
      read w.text ≠ .error .noDelimiter) ∧
    ∀ cs unknown, read cs ≠ .error (.unknownModifier unknown) := by
  refine ⟨fun cs => mem_diceTerm_iff, fun w => ⟨w.exists_read_iff, fun term => WrittenTerm.means_of_read,
    w.read_eq_error_iff, fun h => w.blamesPart_read _ h⟩, fun cs unknown h => ?_⟩
  rcases read_eq_noDelimiter_or cs with hno | hparts
  · cases hno.symm.trans h
  · exact hparts _ h

end Tabletop
