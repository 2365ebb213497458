import Tabletop.Proofs.Dice.Printing
import Tabletop.Proofs.Run.Effect
import Tabletop.Proofs.Script.Operands
import Tabletop.Proofs.Value.Arithmetic
import Tabletop.Run.Meaning

/-!
# Numerals in a script

A numeral is read exactly or refused.  Where it stands by itself its value has to be less than `2^63`; behind a
minus that is a sign it may be `2^63` as well, since the minus and the numeral are then the least number.  So
no number is left out, and none is read in two ways.

This is said at every place of every text, for the tokens before which a text is a script so far
(`Script.SignedNumeral.read_unary` and `read_binary`), and of texts that are a number and nothing else
(`Numeral.writtenAs_digits`, `Number.exists_writtenAs`).
-/

namespace Tabletop

open Text

/-! ## What an expression denotes -/

/-- Evaluated anywhere the expression is the number `i`, and no dice, variables or marks are touched. -/
def Expr.Denotes (e : Expr) (i : ℤ) : Prop :=
  ∀ (ρ : Type) [Roller ρ] (setting : Setting) (p : Progress ρ),
    ∃ (x : Number) (trace : Trace), x.toInt = i ∧ e.eval setting p = .ok (.number x) { p with trace }

namespace Expr

theorem denotes_number (x : Number) : (number x).Denotes x.toInt :=
  fun _ _ _ p => ⟨x, p.trace, rfl, rfl⟩

theorem Denotes.paren {e : Expr} {i : ℤ} (h : e.Denotes i) : (paren e).Denotes i := by
  intro ρ _ setting p
  rw [eval]
  exact h ρ setting p

theorem Denotes.minus {e : Expr} {i : ℤ} (h : e.Denotes i) (hfits : Number.Fits (-i)) :
    (unary .minus e).Denotes (-i) := by
  intro ρ _ setting p
  obtain ⟨x, trace, rfl, heval⟩ := h ρ setting p
  obtain ⟨y, hy, hexact⟩ := (isExact_exactly _).number hfits
  have happly : UnaryOperator.minus.apply (.number x) = .ok (.number y) := hexact
  refine ⟨y, trace.push (.unary .minus (.number x) (.number y)), hy, ?_⟩
  rw [eval, Run.bind_apply, heval]
  show Run.unary .minus (.number x) setting _ = _
  rw [Run.unary_apply, happly]

theorem denotes_ofNat {n : Nat} (h : n < Number.bound) : (number (Int64.ofNat n)).Denotes n := by
  have hn : (Int64.ofNat n).toInt = n := Int64.toInt_ofNat_of_lt h
  exact hn ▸ denotes_number _

/-- What a minus and a numeral are read as. -/
def negated (n : Nat) : Expr :=
  if n = Number.bound then number Int64.minValue else unary .minus (number (Int64.ofNat n))

theorem denotes_negated {n : Nat} (h : n ≤ Number.bound) : (negated n).Denotes (-n) := by
  unfold negated
  by_cases heq : n = Number.bound
  · have hleast : Int64.minValue.toInt = -(n : ℤ) := by
      rw [heq]
      rfl
    rw [if_pos heq, ← hleast]
    exact denotes_number _
  · rw [if_neg heq]
    apply (denotes_ofNat (by omega)).minus
    unfold Number.Fits
    unfold Number.bound at h
    omega

end Expr

/-! ## Numerals as tokens -/

/-- A text of decimal digits, with any number of leading zeros. -/
structure Numeral where
  digits : List Char
  ne_nil : digits ≠ []
  isDigit : ∀ c ∈ digits, c.isDigit

namespace Numeral

/-- The number that a numeral stands for. -/
def value (n : Numeral) : Nat :=
  Decimal.value n.digits

/-- A numeral as a token. -/
def token (n : Numeral) (start : Nat) : Token :=
  { kind := .integer, text := n.digits, start }

theorem wellFormed_token (n : Numeral) (start : Nat) : (n.token start).WellFormed :=
  fun _ => ⟨n.ne_nil, n.isDigit⟩

theorem mem_pattern (n : Numeral) : n.digits ∈ TokenKind.integer.pattern := by
  obtain ⟨c, digits, hsplit⟩ := List.exists_cons_of_ne_nil n.ne_nil
  have hdigits := n.isDigit
  rw [hsplit] at hdigits ⊢
  obtain ⟨hc, hdigits⟩ := List.forall_mem_cons.1 hdigits
  exact mem_oneChar_mul.2 ⟨c, digits, hc, mem_kstar_oneChar.2 hdigits, rfl⟩

theorem scan_digits (n : Numeral) (start : Nat) : Token.scan start n.digits = [n.token start] :=
  @Token.scan_eq_singleton (n.token start) n.mem_pattern fun hkind => by cases hkind

theorem scans_digits (n : Numeral) (start : Nat) : Token.Scans start n.digits [n.token start] := by
  rw [← n.scan_digits start]
  exact Token.scans_scan start n.digits

theorem isProper_token (n : Numeral) (start : Nat) : (n.token start).kind.IsProper := by
  have hinteger : TokenKind.integer.IsProper := by decide
  exact hinteger

/-- The digits of a natural number. -/
def ofNat (n : Nat) : Numeral where
  digits := Nat.toDigits 10 n
  ne_nil := Nat.toDigits_ne_nil
  isDigit := isDigit_of_mem_digits

theorem value_ofNat (n : Nat) : (ofNat n).value = n :=
  Decimal.value_toDigits n

end Numeral

namespace Pending

/-! ## Reading a numeral -/

/-- Behind a sign there is one value more, and the ranges of the two ways to read a numeral meet there. -/
theorem consumes_negated {minus t : Token} (hminus : minus.kind = .minus) (ht : t.kind = .integer)
    (hformed : t.WellFormed) (hvalue : t.value ≤ Number.bound) :
    Consumes [minus, t] 6 (.negated t.value) := by
  have hop : minus.kind.unary? = some .minus := by rw [hminus]; rfl
  unfold Expr.negated
  by_cases heq : t.value = Number.bound
  · rw [if_pos heq]
    exact consumes_least hminus ht hformed heq
  · rw [if_neg heq]
    exact (consumes_integer ht hformed (by omega)).sign hop

/-- A numeral that is too large is refused. -/
theorem read_integer_error {p : Pending} {t : Token} (hp : p.operand = none) (ht : t.kind = .integer)
    (hformed : t.WellFormed) (hvalue : Number.bound ≤ t.value)
    (hlinks : ∀ links, p.links = .unary .minus :: links → Number.bound < t.value) :
    p.read (.ofToken t) = .error (.atToken t .integerOutOfRange) := by
  have hread : p.read (.ofToken t) = p.readInteger t := by
    obtain ⟨before, openings, links, operand⟩ := p
    obtain ⟨kind, text, start⟩ := t
    cases hp
    cases ht
    rfl
  rw [hread, readInteger_eq ht hformed, if_neg (by omega)]
  split
  · rename_i links hminus
    have hlt := hlinks links hminus
    exact if_neg (by omega)
  · rfl

end Pending

/-! ## A numeral behind a minus -/

/-- In a text a minus and the numeral, which begins at the byte `here`, stand between the tokens `before`, which
are read so far as `p`, and the tokens `after`. -/
structure Script.SignedNumeral (n : Numeral) (start : Nat) (source : List Char) (before : List Token)
    (minus : Token) (here : Nat) (after : List Token) (p : Pending) : Prop where
  scan : Token.scan start source = before ++ minus :: n.token here :: after
  run : Pending.start.run before = .ok p
  minus : minus.kind = .minus

namespace Script.SignedNumeral

variable {n : Numeral} {start here : Nat} {source : List Char} {before after : List Token}
  {minus : Token} {p : Pending}

/-- Where an operand has to begin, the minus is a sign.  The script is read as with an expression that denotes
the negated value in the place of the two tokens, if the value is at most `2^63`; a greater one is a fault. -/
theorem read_unary (h : SignedNumeral n start source before minus here after p)
    (hunary : BeginsOperand before) :
    (n.value ≤ Number.bound → ∃ e : Expr, e.Denotes (-n.value) ∧
      read start source =
        Pending.readRest { p with operand := some e } after (start + width source)) ∧
    (Number.bound < n.value → read start source = .error (.atToken (n.token here) .integerOutOfRange)) := by
  have hp := (Pending.operand_eq_none_iff h.run).2 hunary
  have hformed := n.wellFormed_token here
  rw [read_eq_readRest h.scan h.run]
  constructor
  · intro hvalue
    have hconsumes := Pending.consumes_negated h.minus rfl hformed hvalue
    exact ⟨_, Expr.denotes_negated hvalue, hconsumes.readRest_eq hp after _⟩
  · intro hvalue
    obtain ⟨before', openings, links, operand⟩ := p
    cases hp
    have hop : minus.kind.unary? = some .minus := by rw [h.minus]; rfl
    rw [Pending.readRest_cons (Pending.read_sign hop before' openings links)]
    apply Pending.readRest_of_error
    exact Pending.read_integer_error rfl rfl hformed (Nat.le_of_lt hvalue) fun _ _ => hvalue

/-- Behind an operand the minus subtracts.  The numeral is then read like one without a minus: its value has to
be less than `2^63`. -/
theorem read_binary (h : SignedNumeral n start source before minus here after p)
    (hbinary : ¬BeginsOperand before) :
    ∃ q left links, p.read (.ofToken minus) = .ok q ∧
      q.links = .operand left (.binary (.arithmetic .sub)) :: links ∧
      (n.value < Number.bound → ∃ x : Number, x.toInt = n.value ∧
        read start source =
          Pending.readRest { q with operand := some (.number x) } after (start + width source)) ∧
      (Number.bound ≤ n.value →
        read start source = .error (.atToken (n.token here) .integerOutOfRange)) := by
  rw [← Pending.operand_eq_none_iff h.run] at hbinary
  obtain ⟨e, he⟩ := Option.ne_none_iff_exists'.1 hbinary
  have hread : p.read (.ofToken minus) =
      .ok { p with
        links := .operand (Link.settle 4 p.links e).2 (.binary (.arithmetic .sub)) ::
          (Link.settle 4 p.links e).1
        operand := none } := by
    unfold Pending.read
    rw [he]
    show p.readConnective e minus = _
    rw [Pending.readConnective, h.minus]
    rfl
  have hformed := n.wellFormed_token here
  refine ⟨_, _, _, hread, rfl, ?_⟩
  rw [read_eq_readRest h.scan h.run, Pending.readRest_cons hread]
  constructor
  · intro hvalue
    have hconsumes := Pending.consumes_integer rfl hformed hvalue
    exact ⟨_, Int64.toInt_ofNat_of_lt hvalue, hconsumes.readRest_eq rfl after _⟩
  · intro hvalue
    apply Pending.readRest_of_error
    exact Pending.read_integer_error rfl rfl hformed hvalue fun _ hlinks => by cases hlinks

end Script.SignedNumeral

/-! ## Texts that are numbers -/

namespace Numeral

/-- A minus, blanks and a numeral. -/
def signed (n : Numeral) (blanks : List Char) : List Char :=
  '-' :: (blanks ++ n.digits)

theorem scans_signed (n : Numeral) {blanks : List Char} (hblanks : ∀ c ∈ blanks, isSpace c)
    (start : Nat) :
    Token.Scans start (n.signed blanks)
      [{ kind := .minus, text := ['-'], start }, n.token (start + 1 + width blanks)] :=
  Token.scans_minus (.spaces hblanks (n.scans_digits _))

/-- A numeral that is not too large is a number wherever it stands. -/
theorem writtenAs_digits (n : Numeral) (h : n.value < Number.bound) :
    (Expr.number (Int64.ofNat n.value)).WrittenAs n.digits := by
  intro start
  refine ⟨_, n.scans_digits start, List.forall_mem_singleton.2 (n.isProper_token start), ?_⟩
  exact Pending.consumes_integer rfl (n.wellFormed_token start) h

/-- Behind a minus the least number is one as well. -/
theorem writtenAs_signed (n : Numeral) {blanks : List Char} (hblanks : ∀ c ∈ blanks, isSpace c)
    (h : n.value ≤ Number.bound) : (Expr.negated n.value).WrittenAs (n.signed blanks) := by
  intro start
  refine ⟨_, n.scans_signed hblanks start, ?_, ?_⟩
  · have hminus : TokenKind.minus.IsProper := by decide
    exact List.forall_mem_cons.2 ⟨hminus, List.forall_mem_singleton.2 (n.isProper_token _)⟩
  · exact Pending.consumes_negated rfl rfl (n.wellFormed_token _) h

/-- A numeral that is too large is the fault of a text that consists of it, -/
theorem read_digits_error (n : Numeral) (h : Number.bound ≤ n.value) (start : Nat) :
    Script.read start n.digits = .error (.atToken (n.token start) .integerOutOfRange) := by
  have hread : Pending.start.read (.ofToken (n.token start)) =
      .error (.atToken (n.token start) .integerOutOfRange) :=
    Pending.read_integer_error rfl rfl (n.wellFormed_token start) h fun _ hlinks => by cases hlinks
  rw [Script.read_eq, n.scan_digits]
  exact Pending.readRest_of_error hread [] _

/-- and of a text in which a minus stands in front of it. -/
theorem read_signed_error (n : Numeral) {blanks : List Char} (hblanks : ∀ c ∈ blanks, isSpace c)
    (h : Number.bound < n.value) (start : Nat) :
    Script.read start (n.signed blanks) =
      .error (.atToken (n.token (start + 1 + width blanks)) .integerOutOfRange) := by
  have hsigned : Script.SignedNumeral n start (n.signed blanks) []
      { kind := .minus, text := ['-'], start } (start + 1 + width blanks) [] .start :=
    { scan := (n.scans_signed hblanks start).unique (Token.scans_scan _ _).tokenises
      run := rfl
      minus := rfl }
  exact (hsigned.read_unary beginsOperand_nil).2 h

end Numeral

namespace Number

/-- A number is written as a numeral, and behind a minus if it is below zero. -/
theorem exists_numeral (x : Number) :
    ∃ n : Numeral, (n.value : ℤ) = x.toInt ∧ x.text.toList = n.digits ∨
      -(n.value : ℤ) = x.toInt ∧ x.text.toList = n.signed [] := by
  rcases Int.lt_or_le x.toInt 0 with h | h
  · refine ⟨.ofNat x.toInt.natAbs, .inr ⟨?_, ofInt_of_neg h⟩⟩
    rw [Numeral.value_ofNat]
    omega
  · refine ⟨.ofNat x.toInt.natAbs, .inl ⟨?_, ofInt_of_nonneg h⟩⟩
    rw [Numeral.value_ofNat]
    omega

/-- The text of a number is the number wherever it stands. -/
theorem exists_writtenAs (x : Number) : ∃ e : Expr, e.Denotes x.toInt ∧ e.WrittenAs x.text.toList := by
  have hfits := fits_toInt x
  unfold Fits at hfits
  obtain ⟨n, ⟨hvalue, htext⟩ | ⟨hvalue, htext⟩⟩ := x.exists_numeral
  · have hlt : n.value < bound := by
      unfold bound
      omega
    rw [← hvalue, htext]
    exact ⟨_, Expr.denotes_ofNat hlt, n.writtenAs_digits hlt⟩
  · have hle : n.value ≤ bound := by
      unfold bound
      omega
    rw [← hvalue, htext]
    exact ⟨_, Expr.denotes_negated hle, n.writtenAs_signed (List.forall_mem_nil _) hle⟩

theorem templateMark_notMem_text (x : Number) : templateMark ∉ x.text.toList := by
  have hdigits : ∀ n : Numeral, templateMark ∉ n.digits := fun n h => by
    cases n.isDigit _ h
  obtain ⟨n, ⟨-, htext⟩ | ⟨-, htext⟩⟩ := x.exists_numeral
  · rw [htext]
    exact hdigits n
  · rw [htext, Numeral.signed, List.mem_cons, not_or]
    exact ⟨by decide, hdigits n⟩

end Number
end Tabletop
