import Tabletop.Program.Source
import Tabletop.Proofs.Dice.Written
import Tabletop.Proofs.Token.Tokenisation
import Tabletop.Trace

/-!
# Printed dice terms

The text of a dice term writes every part of it: the count even if it is one, and which dice a modifier picks.
It is a written term without a fault that means the term and nothing else, so it is read back
(`DiceTerm.read_text`).  As a source text it is one token, and the program of it rolls the term.
-/

namespace Tabletop

open Text

/-! ## What is printed -/

/-- The sign of a modifier that is printed in full. -/
def Modifier.sign : Modifier → ModifierSign
  | keep (.highest _) => .keepHighest
  | keep (.lowest _) => .keepLowest
  | drop (.highest _) => .dropHighest
  | drop (.lowest _) => .dropLowest

theorem digits_ne_percent (n : Nat) : Nat.toDigits 10 n ≠ ['%'] := by
  intro h
  have hdigit : ('%' : Char).isDigit := isDigit_of_mem_digits '%' (by rw [h]; exact List.mem_cons_self)
  cases hdigit

/-- A modifier as it is printed. -/
def Modifier.written (m : Modifier) : WrittenModifier where
  sign := m.sign
  number := Nat.toDigits 10 m.selector.count
  number_digits := isDigit_of_mem_digits

/-- The sides as they are printed. -/
def Sides.written : Sides → List Char
  | poly count => Nat.toDigits 10 count.val
  | percentile => ['%']

theorem Sides.written_eq_or (sides : Sides) :
    sides.written = ['%'] ∨ sides.written ≠ [] ∧ ∀ c ∈ sides.written, c.isDigit := by
  cases sides with
  | poly count => exact .inr ⟨Nat.toDigits_ne_nil, isDigit_of_mem_digits⟩
  | percentile => exact .inl rfl

/-- A term as it is printed. -/
def DiceTerm.written (term : DiceTerm) : WrittenTerm where
  count := Nat.toDigits 10 term.count.val
  delimiter := 'd'
  sides := term.sides.written
  modifier := term.modifier.map Modifier.written
  count_digits := isDigit_of_mem_digits
  delimiter_mem := .inl rfl
  sides_written := term.sides.written_eq_or

theorem Sides.toList_text (sides : Sides) : sides.text.toList = sides.written := by
  cases sides with
  | poly count => exact toList_toString count.val
  | percentile => rfl

theorem Modifier.toList_text (m : Modifier) : m.text.toList = m.written.text := by
  cases m with
  | keep s | drop s =>
    cases s <;>
      simp [text, Selector.text, written, sign, selector, Selector.count, WrittenModifier.text,
        ModifierSign.text]

theorem DiceTerm.toList_text (term : DiceTerm) : term.text.toList = term.written.text := by
  have hmodifier : ((term.modifier.map Modifier.text).getD "").toList =
      WrittenModifier.textOf (term.modifier.map Modifier.written) := by
    cases term.modifier with
    | none => rfl
    | some m => exact m.toList_text
  simp [text, Quantity.text, Sides.toList_text, hmodifier, written, WrittenTerm.text]

/-- No part of a written term has an equals sign. -/
theorem WrittenTerm.equals_notMem_text (w : WrittenTerm) : '=' ∉ w.text := by
  have hdigits : ∀ {cs : List Char}, (∀ c ∈ cs, c.isDigit) → '=' ∉ cs := fun hcs h => by
    cases hcs '=' h
  have hdelimiter : '=' ≠ w.delimiter := by
    rcases w.delimiter_mem with h | h <;> rw [h] <;> decide
  have hsides : '=' ∉ w.sides := by
    rcases w.sides_written with hpercent | ⟨-, hall⟩
    · rw [hpercent]
      decide
    · exact hdigits hall
  have hmodifier : '=' ∉ WrittenModifier.textOf w.modifier := by
    cases w.modifier with
    | none => exact List.not_mem_nil
    | some m =>
      have hsign : '=' ∉ m.sign.text := by
        cases m.sign <;> decide
      simp [WrittenModifier.textOf, WrittenModifier.text, hsign, hdigits m.number_digits]
  simp [WrittenTerm.text, hdigits w.count_digits, hdelimiter, hsides, hmodifier]

/-! ## Reading it back -/

theorem numberOr1_toDigits (n : Nat) : numberOr1 (Nat.toDigits 10 n) = n := by
  rw [numberOr1, if_neg Nat.toDigits_ne_nil, Decimal.value_toDigits]

theorem Quantity.eq_of_val {a b : Quantity} (h : a.val = b.val) : a = b := by
  cases a
  cases b
  obtain rfl := h
  rfl

theorem Sides.eq_of_means {sides other : Sides} (h : WrittenTerm.MeansSides sides.written other) :
    other = sides := by
  cases sides with
  | percentile => exact h
  | poly count =>
    rw [written, WrittenTerm.MeansSides, if_neg (digits_ne_percent _), Decimal.value_toDigits] at h
    obtain ⟨n, rfl, hn⟩ := h
    rw [Quantity.eq_of_val hn]

theorem Modifier.modifier_sign {m : Modifier} {n : UInt32} (h : n.toNat = m.selector.count) :
    m.sign.modifier n = m := by
  cases m with
  | keep s | drop s => cases s <;> rw [UInt32.toNat_inj.1 h] <;> rfl

theorem Modifier.eq_of_means {m? other : Option Modifier}
    (h : WrittenTerm.MeansModifier (m?.map written) other) : other = m? := by
  cases m? with
  | none => exact h
  | some m =>
    obtain ⟨n, rfl, hn⟩ := h
    rw [written, numberOr1_toDigits] at hn
    exact congrArg some (modifier_sign hn)

theorem Sides.sensible_written (sides : Sides) :
    sides.written = ['%'] ∨ 0 < Decimal.value sides.written ∧ Decimal.value sides.written < 2 ^ 32 := by
  cases sides with
  | percentile => exact .inl rfl
  | poly count =>
    rw [written, Decimal.value_toDigits]
    exact .inr ⟨count.pos, count.lt⟩

theorem Selector.count_lt (s : Selector) : s.count < 2 ^ 32 := by
  cases s with
  | highest n | lowest n => exact n.toNat_lt

namespace DiceTerm

theorem eq_of_means {term other : DiceTerm} (h : term.written.Means other) : other = term := by
  have hcount : other.count = term.count :=
    Quantity.eq_of_val (h.count.trans (numberOr1_toDigits term.count.val))
  have hsides := Sides.eq_of_means h.sides
  have hmodifier := Modifier.eq_of_means h.modifier
  cases other
  cases term
  simp_all

theorem sensible_written (term : DiceTerm) : term.written.Sensible where
  count := by
    refine .inr ?_
    rw [written, Decimal.value_toDigits]
    exact ⟨term.count.pos, term.count.lt⟩
  sides := term.sides.sensible_written
  number := by
    intro m hm
    obtain ⟨modifier, -, rfl⟩ := Option.map_eq_some_iff.1 hm
    refine .inr ?_
    rw [Modifier.written, Decimal.value_toDigits]
    exact modifier.selector.count_lt

/-- Text is read back as the term that it was printed from. -/
theorem read_toList_text (term : DiceTerm) : read term.text.toList = .ok term := by
  rw [toList_text]
  -- what is printed has no fault, so it is read, and what it means is the term
  obtain ⟨other, hother⟩ := term.written.exists_read_iff.2 term.sensible_written
  rwa [eq_of_means (WrittenTerm.means_of_read hother)] at hother

theorem text_mem_pattern (term : DiceTerm) : term.text.toList ∈ TokenKind.dice.pattern := by
  rw [toList_text]
  exact mem_diceTerm_iff.2 ⟨term.written, rfl⟩

/-- A text of the pattern is one token. -/
theorem scan_of_mem_pattern {cs : List Char} (h : cs ∈ TokenKind.dice.pattern) :
    Token.scan 0 cs = [{ kind := .dice, text := cs, start := 0 }] :=
  @Token.scan_eq_singleton { kind := .dice, text := cs, start := 0 } h nofun

/-- A source text that is a dice term is an expression by itself. -/
theorem ofSource_of_read {source : String} {term : DiceTerm} (h : source.toList ∈ TokenKind.dice.pattern)
    (hread : read source.toList = .ok term) : Script.ofSource source = .ok (.single (.dice term)) := by
  rw [Script.ofSource, Script.read_eq, scan_of_mem_pattern h, List.map_singleton, List.foldlM_cons]
  simp only [Word.ofToken, Pending.read, Pending.start, Pending.readOperand, hread]
  rfl

/-- A step shows the term that was rolled in front of its first equals sign. -/
theorem takeWhile_text_roll (term : DiceTerm) (faces : List Face) (total : Number) :
    (Step.roll term faces total).text.toList.takeWhile (· ≠ '=') = term.text.toList := by
  have hterm : ∀ c ∈ term.text.toList, decide (c ≠ '=') := by
    intro c hc
    rw [toList_text] at hc
    refine decide_eq_true fun h => term.written.equals_notMem_text ?_
    rwa [h] at hc
  simp only [Step.text, String.toList_append, List.append_assoc]
  rw [List.takeWhile_append_of_pos hterm]
  simp

/-- The text of a dice term is read back as the term.  As a source text it is one token, a script that is the
term and nothing else, and compiled to the one instruction that rolls it.  It is what a step of a trace shows in
front of its first equals sign, and what a listing shows behind the name of that instruction.  Different terms
have different texts. -/
theorem text_reads_back (term : DiceTerm) :
    read term.text.toList = .ok term ∧
    Token.scan 0 term.text.toList = [{ kind := .dice, text := term.text.toList, start := 0 }] ∧
    Script.ofSource term.text = .ok (.single (.dice term)) ∧
    Program.ofSource term.text = .ok { code := [.roll term] } ∧
    (∀ faces total,
      (Step.roll term faces total).text.toList.takeWhile (· ≠ '=') = term.text.toList) ∧
    (Instruction.roll term).text.toList.drop "roll ".length = term.text.toList ∧
    ∀ other : DiceTerm, other.text = term.text → other = term := by
  have hread := term.read_toList_text
  have hscript := ofSource_of_read term.text_mem_pattern hread
  refine ⟨hread, scan_of_mem_pattern term.text_mem_pattern, hscript, ?_, term.takeWhile_text_roll, ?_,
    fun other hother => ?_⟩
  · rw [Program.ofSource, hscript]
    rfl
  · rw [Instruction.text, String.toList_append]
    exact List.drop_left
  · have hagain := other.read_toList_text
    rw [hother, hread] at hagain
    exact (Except.ok.inj hagain).symm

/-- A term that is written in a shorter way is printed in full. -/
example : (read "D%p".toList).toOption.map text = some "1d%pl1" := by cbv

end DiceTerm
end Tabletop
