import Tabletop.Proofs.Evaluator.Answers
import Tabletop.Proofs.Evaluator.Backticks
import Tabletop.Proofs.Program.Meaning
import Tabletop.Proofs.Script.Numerals

/-!
# Numerals are evaluated exactly

Every number can be written, and what is written is the number.  A source text of digits gives their value, and
one with a minus in front the negated value, wherever this is a 64-bit number; otherwise the digits are the fault.
So the text of a number gives the number again, also between parentheses, and where it is put in the place of
the braces of a template the same text appears.
-/

namespace Tabletop

open Text

/-! ## What a source text gives -/

/-- Wherever the source text is evaluated, it gives the number `i`, and the roller and the context stay as they
are. -/
def EvaluatesTo (source : String) (i : ℤ) : Prop :=
  ∀ (ρ γ : Type) [Roller ρ] [Context γ] (ev : Evaluator ρ) (context : γ) (bigFail : Bool),
    ∃ (x : Number) (trace : Trace), x.toInt = i ∧
      ev.evaluate source context bigFail =
        { result := .ok { value := .number x, trace, bigFail := false }
          roller := ev.roller
          context }

/-- Wherever the source text is evaluated, the numeral that begins at the byte `start` is reported to be out of
range. -/
def OutOfRange (source : String) (n : Numeral) (start : Nat) : Prop :=
  ∀ (ρ γ : Type) [Roller ρ] [Context γ] (ev : Evaluator ρ) (context : γ) (bigFail : Bool),
    ev.evaluate source context bigFail =
      { result := .error (.script
          { cause := .integerOutOfRange
            start
            stop := start + n.digits.length
            slice := String.ofList n.digits })
        roller := ev.roller
        context }

/-- The text `s` is all that the template gives, whether it is filled in or is evaluated between backticks. -/
structure FillsWith (template : String) (s : String) : Prop where
  evaluated : ∀ (ρ γ : Type) [Roller ρ] [Context γ] (ev : Evaluator ρ) (context : γ) (bigFail : Bool),
    ∃ trace, ev.evaluate ("\x60" ++ template ++ "\x60") context bigFail =
      { result := .ok { value := .string s, trace, bigFail := false }
        roller := ev.roller
        context }
  filled : ∀ (ρ γ : Type) [Roller ρ] [Context γ] (ev : Evaluator ρ) (context : γ),
    ∃ trace, ev.fillTemplate template context =
      { result := .ok (s, trace), roller := ev.roller, context }

/-! ## From reading to evaluating -/

section

variable {ρ : Type} [Roller ρ] {e : Expr}

theorem Script.eval_single (e : Expr) : (Script.single e).eval = (e.eval : Run ρ Value) := by
  rw [single, eval]
  exact bind_pure _

/-- An expression between braces shows the number that it denotes. -/
theorem Expr.eval_interpolated {x : Number} (h : e.Denotes x.toInt) (setting : Setting)
    (p : Progress ρ) :
    ∃ trace, (template [.code (.single e)]).eval setting p = .ok (.string x.text) { p with trace } := by
  obtain ⟨y, trace, hy, heval⟩ := h ρ setting p
  obtain rfl := Int64.toInt_inj.1 hy
  have hvalues : Segment.evalAll [.code (.single e)] setting p = .ok [.number y] { p with trace } := by
    rw [Segment.evalAll, Segment.eval, Script.eval_single, Run.bind_apply, heval]
    rfl
  have hjoin : String.join ([Value.number y].map Value.text) = y.text := by
    simp [String.join, Value.text]
  refine ⟨trace, ?_⟩
  rw [eval, Run.bind_apply, hvalues]
  show EStateM.Result.ok (Value.string (String.join _)) _ = _
  rw [hjoin]

/-- What an expression gives that only leaves a trace. -/
theorem Evaluator.run_single {γ : Type} [Context γ] {ev : Evaluator ρ} {context : γ} {bigFail : Bool}
    {expected : Option ValueType} {v : Value} {trace : Trace}
    (heval : e.eval (ev.setting context bigFail) { roller := ev.roller } =
      .ok v { roller := ev.roller, trace })
    (htype : ∀ type ∈ expected, v.type = type) :
    ev.run (Script.single e).compile context bigFail expected =
      { result := .ok { value := v, trace, bigFail := false }, roller := ev.roller, context } := by
  have hrun : Run.program (Script.single e).compile (ev.setting context bigFail)
      { roller := ev.roller } = .ok v { roller := ev.roller, trace } := by
    rw [Run.program_compile, Script.eval_single, heval]
  exact run_of_ok hrun htype

end

/-- A source text that is read as an expression gives what the expression denotes. -/
theorem evaluatesTo_of_read {source : String} {e : Expr} {i : ℤ}
    (hread : Script.ofSource source = .ok (.single e)) (h : e.Denotes i) : EvaluatesTo source i := by
  intro ρ γ _ _ ev context bigFail
  obtain ⟨x, trace, hx, heval⟩ := h ρ (ev.setting context bigFail) { roller := ev.roller }
  refine ⟨x, trace, hx, ?_⟩
  rw [Evaluator.evaluate, Program.ofSource, hread]
  exact Evaluator.run_single heval (fun type htype => by cases htype)

theorem Expr.WrittenAs.evaluatesTo {e : Expr} {cs : List Char} {i : ℤ} (hcs : e.WrittenAs cs)
    (h : e.Denotes i) : EvaluatesTo (String.ofList cs) i := by
  apply evaluatesTo_of_read _ h
  rw [Script.ofSource, String.toList_ofList]
  exact hcs.read 0

/-- Between braces it fills a template with the text of the number. -/
theorem Expr.WrittenAs.fillsWith {e : Expr} {cs : List Char} {x : Number} (hcs : e.WrittenAs cs)
    (h : e.Denotes x.toInt) (hmark : templateMark ∉ cs) :
    FillsWith (String.ofList (openingBrace :: cs ++ [closingBrace])) x.text := by
  have hbody : ∀ start, Segment.readBody start (openingBrace :: cs ++ [closingBrace]) =
      .ok [.code (.single e)] := fun start => Segment.readBody_braced (hcs.read (start + 1)) hmark
  constructor
  · intro ρ γ _ _ ev context bigFail
    obtain ⟨trace, heval⟩ :=
      Expr.eval_interpolated h (ev.setting context bigFail) { roller := ev.roller }
    have hbackticked : "\x60" ++ String.ofList (openingBrace :: cs ++ [closingBrace]) ++ "\x60" =
        String.ofList (backticked (openingBrace :: cs ++ [closingBrace])) := by
      rw [← String.toList_inj]
      simp [backticked, templateMark]
    have hclosed : templateMark ∉ openingBrace :: cs ++ [closingBrace] := by
      simpa [templateMark, openingBrace, closingBrace] using hmark
    have hread : Script.ofSource
        (String.ofList (backticked (openingBrace :: cs ++ [closingBrace]))) =
        .ok (.single (.template [.code (.single e)])) := by
      rw [Script.ofSource, String.toList_ofList, Script.read_backticked 0 hclosed, hbody]
      rfl
    refine ⟨trace, ?_⟩
    rw [hbackticked, Evaluator.evaluate, Program.ofSource, hread]
    exact Evaluator.run_single heval (fun type htype => by cases htype)
  · intro ρ γ _ _ ev context
    obtain ⟨trace, heval⟩ :=
      Expr.eval_interpolated h (ev.setting context false) { roller := ev.roller }
    have htemplate : Program.ofTemplate (String.ofList (openingBrace :: cs ++ [closingBrace])) =
        .ok (Script.single (.template [.code (.single e)])).compile := by
      rw [Program.ofTemplate, Script.ofTemplate, String.toList_ofList, hbody]
      rfl
    have htype : ∀ type ∈ some ValueType.string, (Value.string x.text).type = type :=
      fun type htype => Option.some.inj htype
    refine ⟨trace, ?_⟩
    rw [Evaluator.fillTemplate, htemplate]
    show (ev.run _ context false (some .string)).map Evaluator.textOf = _
    rw [Evaluator.run_single heval htype]
    rfl

/-! ## Places in bytes -/

theorem Text.width_eq_length {cs : List Char} (h : ∀ c ∈ cs, c.utf8Size = 1) :
    width cs = cs.length := by
  induction cs with
  | nil => rfl
  | cons c cs ih =>
    obtain ⟨hc, hcs⟩ := List.forall_mem_cons.1 h
    rw [width_cons, hc, ih hcs, List.length_cons, Nat.add_comm]

theorem utf8Size_of_isDigit {c : Char} (h : c.isDigit) : c.utf8Size = 1 := by
  rw [Char.isDigit, Bool.and_eq_true, decide_eq_true_eq, decide_eq_true_eq] at h
  rw [Char.utf8Size_eq_one_iff]
  exact UInt32.le_trans h.2 (by decide)

/-- A source text in which a numeral is a fault. -/
theorem outOfRange_of_read {source : String} {n : Numeral} {start : Nat}
    (hread : Script.ofSource source = .error (.atToken (n.token start) .integerOutOfRange)) :
    OutOfRange source n start := by
  intro ρ γ _ _ ev context bigFail
  have hwidth : width n.digits = n.digits.length :=
    width_eq_length fun c hc => utf8Size_of_isDigit (n.isDigit c hc)
  rw [Evaluator.evaluate, Program.ofSource, hread, ← hwidth]
  rfl

/-! ## Numerals and numbers -/

/-- A text between so many pairs of parentheses. -/
def parenthesized : Nat → List Char → List Char
  | 0, cs => cs
  | depth + 1, cs => '(' :: parenthesized depth cs ++ [')']

theorem Expr.exists_writtenAs_parenthesized {e : Expr} {cs : List Char} {i : ℤ} (hcs : e.WrittenAs cs)
    (h : e.Denotes i) (depth : Nat) :
    ∃ e' : Expr, e'.Denotes i ∧ e'.WrittenAs (parenthesized depth cs) := by
  induction depth with
  | zero => exact ⟨e, h, hcs⟩
  | succ depth ih =>
    obtain ⟨e', hdenotes, hwritten⟩ := ih
    exact ⟨.paren e', hdenotes.paren, hwritten.paren⟩

theorem templateMark_notMem_parenthesized {cs : List Char} (h : templateMark ∉ cs) (depth : Nat) :
    templateMark ∉ parenthesized depth cs := by
  induction depth with
  | zero => exact h
  | succ depth ih => simpa [parenthesized, templateMark] using ih

/-- Integer literals are read exactly over the whole range of numbers.

A source text of digits gives their value if this is less than `2^63`; otherwise the digits are out of range.
With a minus and white space in front it gives the negated value if this is at most `2^63`.  The same holds of
a minus and digits at any other place where the minus is a sign: the script is read as with an expression in
their place that denotes the negated value.  Where the minus stands behind an operand it subtracts, and then the
limit for the digits is the one without a minus.

So the decimal text of every number gives the number, and so it does inside any number of parentheses; between
the braces of a template it gives the text. -/
theorem Evaluator.numerals_exact :
    (∀ n : Numeral,
      (n.value < 2 ^ 63 → EvaluatesTo (String.ofList n.digits) n.value) ∧
      (2 ^ 63 ≤ n.value → OutOfRange (String.ofList n.digits) n 0)) ∧
    (∀ (n : Numeral) (blanks : List Char), (∀ c ∈ blanks, isSpace c) →
      (n.value ≤ 2 ^ 63 → EvaluatesTo (String.ofList (n.signed blanks)) (-n.value)) ∧
      (2 ^ 63 < n.value → OutOfRange (String.ofList (n.signed blanks)) n (1 + blanks.length))) ∧
    (∀ {n start source before minus here after p},
      Script.SignedNumeral n start source before minus here after p → BeginsOperand before →
      (n.value ≤ 2 ^ 63 → ∃ e : Expr, e.Denotes (-n.value) ∧
        Script.read start source =
          Pending.readRest { p with operand := some e } after (start + width source)) ∧
      (2 ^ 63 < n.value →
        Script.read start source = .error (.atToken (n.token here) .integerOutOfRange))) ∧
    (∀ {n start source before minus here after p},
      Script.SignedNumeral n start source before minus here after p → ¬BeginsOperand before →
      ∃ q left links, p.read (.ofToken minus) = .ok q ∧
        q.links = .operand left (.binary (.arithmetic .sub)) :: links ∧
        (n.value < 2 ^ 63 → ∃ x : Number, x.toInt = n.value ∧
          Script.read start source =
            Pending.readRest { q with operand := some (.number x) } after (start + width source)) ∧
        (2 ^ 63 ≤ n.value →
          Script.read start source = .error (.atToken (n.token here) .integerOutOfRange))) ∧
    ∀ (x : Number) (depth : Nat),
      EvaluatesTo (String.ofList (parenthesized depth x.text.toList)) x.toInt ∧
      FillsWith
        (String.ofList (openingBrace :: parenthesized depth x.text.toList ++ [closingBrace])) x.text := by
  refine ⟨fun n => ⟨fun h => ?_, fun h => ?_⟩, fun n blanks hblanks => ⟨fun h => ?_, fun h => ?_⟩,
    fun hsigned hunary => hsigned.read_unary hunary,
    fun hsigned hbinary => hsigned.read_binary hbinary, fun x depth => ?_⟩
  · exact (n.writtenAs_digits h).evaluatesTo (Expr.denotes_ofNat h)
  · apply outOfRange_of_read
    rw [Script.ofSource, String.toList_ofList]
    exact n.read_digits_error h 0
  · exact (n.writtenAs_signed hblanks h).evaluatesTo (Expr.denotes_negated h)
  · have hwidth : width blanks = blanks.length :=
      width_eq_length fun c hc => Token.utf8Size_of_isSpace (hblanks c hc)
    apply outOfRange_of_read
    rw [Script.ofSource, String.toList_ofList, n.read_signed_error hblanks h 0, hwidth, Nat.zero_add]
  · obtain ⟨e, hdenotes, hwritten⟩ := x.exists_writtenAs
    obtain ⟨e', hdenotes', hwritten'⟩ := Expr.exists_writtenAs_parenthesized hwritten hdenotes depth
    have hmark := templateMark_notMem_parenthesized x.templateMark_notMem_text depth
    exact ⟨hwritten'.evaluatesTo hdenotes', hwritten'.fillsWith hdenotes' hmark⟩

end Tabletop
