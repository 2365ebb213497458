import Tabletop.Proofs.Dice.Printing
import Tabletop.Proofs.Text.Unambiguous

/-!
# Traces as texts

What a trace shows is put together without any escape but those between quotes: signs stand next to minus
signs, and a comma stands both between steps and in texts.  Still nothing is lost, as long as every name is one
that can be written in a script.  The kinds of steps are told apart by their first character, but for those that
begin with a number and for a minus, which may be the sign of an operand or that of a number; there it shows
behind the number which one it is (`Step.readsOff_text`).  Steps follow each other until the text ends
(`Trace.eq_of_text_eq`).
-/

namespace Tabletop

open Text

/-! ## Values -/

theorem TokenKind.lead?_of_isDigit {c : Char} (h : c.isDigit) : lead? c = some .digit :=
  if_pos h

theorem Number.readsOff_text :
    ReadsOff (fun x : Number => x.text.toList) (fun _ => True) (LeadsWith fun c => ¬c.isDigit) := by
  intro x y rest rest' _ _ hrest hrest' h
  obtain ⟨hvalue, hend⟩ := readsOff_ofInt trivial trivial hrest hrest' h
  exact ⟨Int64.toInt_inj.1 hvalue, hend⟩

namespace Value

theorem exists_cons_render (v : Value) :
    ∃ c cs, v.render.toList = c :: cs ∧ (c.isDigit ∨ c = '-' ∨ c = '"') := by
  cases v with
  | number x =>
    obtain ⟨c, cs, hdigits, hc⟩ := exists_cons_ofInt x.toInt
    exact ⟨c, cs, hdigits, hc.elim (fun h => .inr (.inl h.2)) fun h => .inl h.2⟩
  | string s => exact ⟨_, _, toList_quote s, .inr (.inr rfl)⟩

/-- No value begins with an equals sign. -/
theorem leadsWith_render (v : Value) (rest : List Char) :
    LeadsWith (· ≠ '=') (v.render.toList ++ rest) := by
  obtain ⟨c, cs, hrender, hc⟩ := v.exists_cons_render
  rw [hrender]
  refine leadsWith_cons.2 fun heq => ?_
  rw [heq] at hc
  exact absurd hc (by decide)

theorem exists_lead_render (v : Value) :
    ∃ c cs lead, v.render.toList = c :: cs ∧ TokenKind.lead? c = some lead ∧
      lead ∈ [TokenKind.Lead.digit, .sign, .quote] := by
  obtain ⟨c, cs, hrender, hc | rfl | rfl⟩ := v.exists_cons_render
  · exact ⟨c, cs, .digit, hrender, TokenKind.lead?_of_isDigit hc, by decide⟩
  · exact ⟨_, cs, .sign, hrender, by decide, by decide⟩
  · exact ⟨_, cs, .quote, hrender, by decide, by decide⟩

/-- A number begins with no quote. -/
theorem ofInt_append_ne_quote (i : Int) (s : String) (rest rest' : List Char) :
    ofInt i ++ rest ≠ (quote s).toList ++ rest' := by
  intro h
  obtain ⟨c, cs, hdigits, hc⟩ := exists_cons_ofInt i
  rw [hdigits, toList_quote] at h
  obtain rfl := (List.cons.inj h).1
  rcases hc with ⟨-, hc⟩ | ⟨-, hc⟩ <;> exact absurd hc (by decide)

/-- A value stops where no digit follows, and tells its type. -/
theorem readsOff_render :
    ReadsOff (fun v : Value => v.render.toList) (fun _ => True) (LeadsWith fun c => ¬c.isDigit) := by
  intro v w rest rest' _ _ hrest hrest' h
  cases v with
  | number x =>
    cases w with
    | number y =>
      obtain ⟨rfl, hend⟩ := Number.readsOff_text trivial trivial hrest hrest' h
      exact ⟨rfl, hend⟩
    | string t => exact absurd h (ofInt_append_ne_quote _ _ _ _)
  | string s =>
    cases w with
    | number y => exact absurd h.symm (ofInt_append_ne_quote _ _ _ _)
    | string t =>
      obtain ⟨rfl, hend⟩ := readsOff_quote trivial trivial trivial trivial h
      exact ⟨rfl, hend⟩

end Value

/-! ## Operators -/

/-- No operator between operands begins with a digit or with the letter of a dice term. -/
theorem BinaryOperator.exists_cons_text (op : BinaryOperator) :
    ∃ c cs, op.text.toList = c :: cs ∧ ¬c.isDigit ∧ c ≠ 'd' ∧ (c = '=' → cs = ['=']) := by
  cases op with
  | arithmetic op => cases op <;> exact ⟨_, _, rfl, by decide⟩
  | comparison op => cases op <;> exact ⟨_, _, rfl, by decide⟩

theorem BinaryOperator.leadsWith_text (op : BinaryOperator) (rest : List Char) :
    LeadsWith (fun c => ¬c.isDigit) (op.text.toList ++ rest) := by
  obtain ⟨c, cs, htext, hc, -⟩ := op.exists_cons_text
  rw [htext]
  exact leadsWith_cons.2 hc

theorem BinaryOperator.mem_all (op : BinaryOperator) : op ∈ all := by
  cases op with
  | arithmetic op => cases op <;> decide
  | comparison op => cases op <;> decide

/-- An operator goes on behind another one only with an equals sign, with which no operand begins. -/
theorem BinaryOperator.readsOff_text :
    ReadsOff (fun op : BinaryOperator => op.text.toList) (fun _ => True) (LeadsWith (· ≠ '=')) := by
  have hlonger : ∀ op ∈ all, ∀ other ∈ all, op.text.toList <+: other.text.toList →
      op = other ∨ other.text.toList = op.text.toList ++ ['='] := by
    decide
  have hshorter : ∀ {op other : BinaryOperator} {rest rest' more : List Char},
      LeadsWith (· ≠ '=') rest → other.text.toList = op.text.toList ++ more → rest = more ++ rest' →
      op = other ∧ rest = rest' := by
    intro op other rest rest' more hrest hother hmore
    rcases hlonger op op.mem_all other other.mem_all ⟨more, hother.symm⟩ with rfl | hequals
    · obtain rfl := List.append_right_eq_self.1 hother.symm
      exact ⟨rfl, hmore⟩
    · obtain rfl := List.append_cancel_left (hother.symm.trans hequals)
      rw [hmore] at hrest
      exact absurd rfl (leadsWith_cons.1 hrest)
  intro op other rest rest' _ _ hrest hrest' h
  rcases List.append_eq_append_iff.1 h with ⟨more, hother, hmore⟩ | ⟨more, hop, hmore⟩
  · exact hshorter hrest hother hmore
  · obtain ⟨hsame, hend⟩ := hshorter hrest' hop hmore
    exact ⟨hsame.symm, hend.symm⟩

theorem UnaryOperator.exists_text (op : UnaryOperator) :
    ∃ c, op.text.toList = [c] ∧ TokenKind.lead? c = some .sign := by
  cases op <;> exact ⟨_, rfl, by decide⟩

theorem UnaryOperator.readsOff_text :
    ReadsOff (fun op : UnaryOperator => op.text.toList) (fun _ => True) (fun _ => True) := by
  have hinj : ∀ op ∈ all, ∀ other ∈ all, op.text.toList.head? = other.text.toList.head? → op = other := by
    decide
  have hall : ∀ op : UnaryOperator, op ∈ all := fun op => by cases op <;> decide
  intro op other rest rest' _ _ _ _ h
  obtain ⟨c, hop, -⟩ := op.exists_text
  obtain ⟨d, hother, -⟩ := other.exists_text
  simp only [hop, hother] at h
  obtain ⟨rfl, hend⟩ := List.cons.inj h
  exact ⟨hinj op (hall op) other (hall other) (by rw [hop, hother]), hend⟩

/-! ## Dice -/

namespace Face

/-- A face without what says that it is dropped. -/
def bare (value : Int) (bigFail : Bool) : List Char :=
  ofInt value ++ if bigFail then ['!'] else []

theorem toList_text (f : Face) :
    f.text.toList =
      if f.dropped then '(' :: (bare f.value f.bigFail ++ [')']) else bare f.value f.bigFail := by
  cases f with
  | mk value dropped bigFail => cases dropped <;> cases bigFail <;> simp [text, bare, ofInt]

theorem readsOff_bare :
    ReadsOff (fun p : Int × Bool => bare p.1 p.2) (fun _ => True)
      (LeadsWith fun c => ¬c.isDigit ∧ c ≠ '!') := by
  have hmark : ∀ (bigFail : Bool) {rest : List Char}, LeadsWith (fun c => ¬c.isDigit ∧ c ≠ '!') rest →
      LeadsWith (fun c => ¬c.isDigit) ((if bigFail then ['!'] else []) ++ rest) := by
    intro bigFail rest hrest
    cases bigFail with
    | false => exact hrest.mono fun c hc => hc.1
    | true => exact leadsWith_cons.2 (by decide)
  rintro ⟨i, a⟩ ⟨j, b⟩ rest rest' _ _ hrest hrest' h
  simp only [bare, List.append_assoc] at h
  obtain ⟨rfl, htail⟩ := readsOff_ofInt trivial trivial (hmark a hrest) (hmark b hrest') h
  cases a with
  | false =>
    cases b with
    | false => exact ⟨rfl, htail⟩
    | true =>
      rw [show rest = '!' :: rest' from htail, leadsWith_cons] at hrest
      exact absurd rfl hrest.2
  | true =>
    cases b with
    | false =>
      rw [show rest' = '!' :: rest from htail.symm, leadsWith_cons] at hrest'
      exact absurd rfl hrest'.2
    | true => exact ⟨rfl, (List.cons.inj htail).2⟩

theorem exists_cons_bare (value : Int) (bigFail : Bool) :
    ∃ c cs, bare value bigFail = c :: cs ∧ c ≠ '(' ∧ c ≠ ']' := by
  obtain ⟨c, cs, hdigits, hc⟩ := exists_cons_ofInt value
  refine ⟨c, _, congrArg (· ++ _) hdigits, ?_⟩
  rcases hc with ⟨-, rfl⟩ | ⟨-, hc⟩
  · decide
  · constructor <;> rintro rfl <;> cases hc

/-- A face tells its number and its marks. -/
theorem readsOff_text :
    ReadsOff (fun f : Face => f.text.toList) (fun _ => True) (LeadsWith fun c => c = ',' ∨ c = ']') := by
  have hbehind : ∀ {rest : List Char}, LeadsWith (fun c => c = ',' ∨ c = ']') rest →
      LeadsWith (fun c => ¬c.isDigit ∧ c ≠ '!') rest := by
    intro rest hrest
    refine hrest.mono fun c hc => ?_
    rcases hc with rfl | rfl <;> decide
  have hclosing : ∀ {rest : List Char}, LeadsWith (fun c => ¬c.isDigit ∧ c ≠ '!') (')' :: rest) :=
    leadsWith_cons.2 (by decide)
  have hmixed : ∀ {i j : Int} {a b : Bool} {rest rest' : List Char},
      bare i a ++ rest ≠ '(' :: (bare j b ++ rest') := by
    intro i j a b rest rest' h
    obtain ⟨c, cs, hbare, hc, -⟩ := exists_cons_bare i a
    rw [hbare] at h
    exact hc (List.cons.inj h).1
  rintro ⟨i, dropped, a⟩ ⟨j, dropped', b⟩ rest rest' _ _ hrest hrest' h
  simp only [toList_text] at h
  cases dropped with
  | false =>
    cases dropped' with
    | false =>
      obtain ⟨hface, hend⟩ :=
        @readsOff_bare (i, a) (j, b) _ _ trivial trivial (hbehind hrest) (hbehind hrest') h
      cases hface
      exact ⟨rfl, hend⟩
    | true =>
      simp only [if_true, List.cons_append, List.append_assoc] at h
      exact absurd h hmixed
  | true =>
    cases dropped' with
    | false =>
      simp only [if_true, List.cons_append, List.append_assoc] at h
      exact absurd h.symm hmixed
    | true =>
      simp only [if_true, List.cons_append, List.append_assoc] at h
      obtain ⟨hface, htail⟩ :=
        @readsOff_bare (i, a) (j, b) _ _ trivial trivial hclosing hclosing (List.cons.inj h).2
      cases hface
      exact ⟨rfl, (List.cons.inj htail).2⟩

theorem exists_cons_text (f : Face) : ∃ c cs, f.text.toList = c :: cs ∧ c ≠ ']' := by
  obtain ⟨c, cs, hbare, -, hc⟩ := exists_cons_bare f.value f.bigFail
  rw [toList_text]
  split
  · exact ⟨_, _, rfl, by decide⟩
  · exact ⟨c, cs, hbare, hc⟩

/-- Faces with commas between them stop at the closing bracket. -/
theorem separates_comma :
    Separates (fun f : Face => f.text.toList) (fun _ => True) (LeadsWith fun c => c = ',' ∨ c = ']') [',']
      (fun cs => cs.head? = some ']') where
  readsOff := readsOff_text
  follow_sep _ := leadsWith_cons.2 (.inl rfl)
  follow_stop cs hcs c hc := by
    rw [hcs] at hc
    exact .inr (Option.some.inj hc).symm
  stop_ne_sep cs h := by cases h
  stop_ne_write f cs _ h := by
    obtain ⟨c, rest, htext, hc⟩ := f.exists_cons_text
    rw [htext] at h
    exact hc (Option.some.inj h)

end Face

namespace DiceTerm

/-- A term stops at the equals sign behind it. -/
theorem readsOff_text : ReadsOff (fun term : DiceTerm => term.text.toList) (fun _ => True)
    (LeadsWith (· = '=')) := by
  have hterm : ∀ term : DiceTerm, ∀ c ∈ term.text.toList, c ≠ '=' := by
    rintro term c hc rfl
    rw [toList_text] at hc
    exact term.written.equals_notMem_text hc
  intro term other rest rest' _ _ hrest hrest' h
  obtain ⟨htext, hend⟩ := readsOff_run (· ≠ '=') (hterm term) (hterm other)
    (hrest.mono fun _ hc hne => hne hc) (hrest'.mono fun _ hc hne => hne hc) h
  have hread := term.read_toList_text
  rw [htext, other.read_toList_text] at hread
  exact ⟨(Except.ok.inj hread).symm, hend⟩

theorem exists_toList_text (term : DiceTerm) :
    ∃ cs, term.text.toList = ofInt term.count.val ++ 'd' :: cs :=
  ⟨_, by rw [toList_text, ofInt_natCast]; rfl⟩

end DiceTerm

/-! ## Names -/

/-- The text is a name as scripts have them. -/
def IsName (s : String) : Prop :=
  s.toList ∈ TokenKind.identifier.pattern

/-- A name stops where no part of a name follows. -/
theorem readsOff_name : ReadsOff String.toList IsName (LeadsWith fun c => ¬isNamePart c) := by
  have hparts : ∀ {name : String}, IsName name → ∀ c ∈ name.toList, isNamePart c := by
    intro name hname
    obtain ⟨c, cs, hc, hcs, hchars⟩ := mem_oneChar_mul.1 hname
    rw [hchars]
    refine List.forall_mem_cons.2 ⟨?_, mem_kstar_oneChar.1 hcs⟩
    rw [isNamePart, hc, Bool.true_or]
  intro name other rest rest' hname hother hrest hrest' h
  obtain ⟨hchars, hend⟩ := readsOff_run (isNamePart ·) (hparts hname) (hparts hother) hrest hrest' h
  exact ⟨String.toList_inj.1 hchars, hend⟩

/-! ## Steps -/

namespace Step

/-- The name that the step is about, if it is about one, is a name as scripts have them. -/
def Named : Step → Prop
  | load name _ | store name _ => IsName name
  | roll .. | unary .. | binary .. => True

section

variable (rest : List Char)

theorem roll_append (term : DiceTerm) (faces : List Face) (total : Number) :
    (roll term faces total).text.toList ++ rest = term.text.toList ++ '=' :: '[' ::
      ([','].intercalate (faces.map fun f => f.text.toList) ++
        ']' :: '=' :: (total.text.toList ++ rest)) := by
  simp [text, String.toList_intercalate, Function.comp_def]

theorem unary_append (op : UnaryOperator) (operand result : Value) :
    (unary op operand result).text.toList ++ rest =
      op.text.toList ++ (operand.render.toList ++ '=' :: (result.render.toList ++ rest)) := by
  simp [text]

theorem binary_append (left : Value) (op : BinaryOperator) (right result : Value) :
    (binary left op right result).text.toList ++ rest =
      left.render.toList ++
        (op.text.toList ++ (right.render.toList ++ '=' :: (result.render.toList ++ rest))) := by
  simp [text]

theorem load_append (name : String) (value : Value) :
    (load name value).text.toList ++ rest = name.toList ++ '=' :: (value.render.toList ++ rest) := by
  simp [text]

theorem store_append (name : String) (value : Value) :
    (store name value).text.toList ++ rest =
      name.toList ++ ':' :: '=' :: (value.render.toList ++ rest) := by
  simp [text]

end

/-- The sorts of characters with which a step can begin. -/
def leads : Step → List TokenKind.Lead
  | roll .. => [.digit]
  | unary .. => [.sign]
  | binary .. => [.digit, .sign, .quote]
  | load .. | store .. => [.letter]

theorem exists_lead_text {step : Step} (h : step.Named) :
    ∃ c cs lead, step.text.toList = c :: cs ∧ TokenKind.lead? c = some lead ∧ lead ∈ step.leads := by
  have hfront : ∀ {us vs : List Char}, step.text.toList = us ++ vs →
      (∃ c cs lead, us = c :: cs ∧ TokenKind.lead? c = some lead ∧ lead ∈ step.leads) →
      ∃ c cs lead, step.text.toList = c :: cs ∧ TokenKind.lead? c = some lead ∧ lead ∈ step.leads := by
    rintro us vs htext ⟨c, cs, lead, rfl, hlead, hmem⟩
    exact ⟨c, cs ++ vs, lead, htext, hlead, hmem⟩
  cases step with
  | roll term faces total =>
    refine hfront (by simpa using roll_append [] term faces total) ?_
    obtain ⟨cs, htext⟩ := term.exists_toList_text
    obtain ⟨c, ds, hdigits, hc⟩ := exists_cons_toDigits term.count.val
    rw [htext, ofInt_natCast, hdigits]
    exact ⟨c, _, .digit, rfl, TokenKind.lead?_of_isDigit hc, List.mem_cons_self⟩
  | unary op operand result =>
    refine hfront (by simpa using unary_append [] op operand result) ?_
    obtain ⟨c, htext, hlead⟩ := op.exists_text
    exact ⟨c, [], .sign, htext, hlead, List.mem_cons_self⟩
  | binary left op right result =>
    exact hfront (by simpa using binary_append [] left op right result) left.exists_lead_render
  | load name value =>
    exact hfront (by simpa using load_append [] name value) (TokenKind.exists_lead_of_mem_pattern h)
  | store name value =>
    exact hfront (by simpa using store_append [] name value) (TokenKind.exists_lead_of_mem_pattern h)

/-- Steps that are shown in the same way can begin with characters of the same sort. -/
theorem exists_common_lead {step other : Step} {rest rest' : List Char} (hstep : step.Named)
    (hother : other.Named) (h : step.text.toList ++ rest = other.text.toList ++ rest') :
    ∃ lead ∈ step.leads, lead ∈ other.leads := by
  obtain ⟨c, cs, lead, htext, hlead, hmem⟩ := exists_lead_text hstep
  obtain ⟨d, ds, lead', htext', hlead', hmem'⟩ := exists_lead_text hother
  rw [htext, htext'] at h
  rw [(List.cons.inj h).1, hlead'] at hlead
  obtain rfl := Option.some.inj hlead
  exact ⟨_, hmem, hmem'⟩

/-! ### Kinds of steps with the same first characters -/

variable {rest rest' : List Char}

/-- Behind the number in front there is the letter of a dice term or an operator. -/
theorem roll_ne_binary (term : DiceTerm) (faces : List Face) (total : Number) (left : Value)
    (op : BinaryOperator) (right result : Value) :
    (roll term faces total).text.toList ++ rest ≠ (binary left op right result).text.toList ++ rest' := by
  intro h
  obtain ⟨cs, htext⟩ := term.exists_toList_text
  rw [roll_append, binary_append, htext, List.append_assoc] at h
  cases left with
  | string s => exact Value.ofInt_append_ne_quote _ _ _ _ h
  | number x =>
    have hletter : LeadsWith (fun c => ¬c.isDigit) ('d' :: cs ++ '=' :: '[' :: ([','].intercalate
        (faces.map fun f => f.text.toList) ++ ']' :: '=' :: (total.text.toList ++ rest))) :=
      leadsWith_cons.2 (by decide)
    obtain ⟨-, htail⟩ := readsOff_ofInt trivial trivial hletter (op.leadsWith_text _) h
    obtain ⟨c, ds, hop, -, hc, -⟩ := op.exists_cons_text
    rw [hop] at htail
    exact hc (List.cons.inj htail).1.symm

/-- A minus in front of a number is the sign of an operand if an equals sign is behind the number that is not
the first half of an operator, and otherwise it belongs to the number. -/
theorem unary_ne_binary (op : UnaryOperator) (operand result left : Value) (op' : BinaryOperator)
    (right result' : Value) :
    (unary op operand result).text.toList ++ rest ≠
      (binary left op' right result').text.toList ++ rest' := by
  intro h
  rw [unary_append, binary_append] at h
  obtain ⟨sign, hsign, hlead⟩ := op.exists_text
  rw [hsign, List.singleton_append] at h
  -- only a number below zero begins with a sign
  obtain ⟨x, hx, rfl⟩ : ∃ x : Number, x.toInt < 0 ∧ left = .number x := by
    cases left with
    | string s =>
      rw [Value.render, toList_quote] at h
      rw [(List.cons.inj h).1] at hlead
      exact absurd hlead (by decide)
    | number x =>
      obtain ⟨c, cs, hdigits, hc⟩ := exists_cons_ofInt x.toInt
      rcases hc with ⟨hx, -⟩ | ⟨-, hc⟩
      · exact ⟨x, hx, rfl⟩
      · rw [show (Value.number x).render.toList = c :: cs from hdigits] at h
        rw [(List.cons.inj h).1, TokenKind.lead?_of_isDigit hc] at hlead
        cases hlead
  rw [show (Value.number x).render.toList = '-' :: Nat.toDigits 10 x.toInt.natAbs from ofInt_of_neg hx,
    ← ofInt_natCast] at h
  have hoperand := (List.cons.inj h).2
  cases operand with
  | string s => exact Value.ofInt_append_ne_quote _ _ _ _ hoperand.symm
  | number y =>
    have hequals : LeadsWith (fun c => ¬c.isDigit) ('=' :: (result.render.toList ++ rest)) :=
      leadsWith_cons.2 (by decide)
    obtain ⟨-, htail⟩ := readsOff_ofInt trivial trivial hequals (op'.leadsWith_text _) hoperand
    obtain ⟨c, cs, hop, -, -, hc⟩ := op'.exists_cons_text
    rw [hop] at htail
    obtain ⟨hequal, hresult⟩ := List.cons.inj htail
    have hlead := result.leadsWith_render rest
    rw [hresult, hc hequal.symm] at hlead
    exact leadsWith_cons.1 hlead rfl

theorem load_ne_store {name name' : String} (hname : IsName name) (hname' : IsName name')
    (value value' : Value) :
    (load name value).text.toList ++ rest ≠ (store name' value').text.toList ++ rest' := by
  intro h
  rw [load_append, store_append] at h
  obtain ⟨-, htail⟩ := readsOff_name hname hname' (leadsWith_cons.2 (by decide))
    (leadsWith_cons.2 (by decide)) h
  exact absurd (List.cons.inj htail).1 (by decide)

/-! ### One kind of step -/

/-- What ends a step is no part of a value. -/
theorem not_isDigit_of_comma {cs : List Char} (h : LeadsWith (· = ',') cs) :
    LeadsWith (fun c => ¬c.isDigit) cs := by
  refine h.mono fun c hc => ?_
  rw [hc]
  decide

/-- A value in front of an equals sign. -/
theorem operand_unique {v w : Value} (h : v.render.toList ++ '=' :: rest = w.render.toList ++ '=' :: rest') :
    v = w ∧ rest = rest' := by
  have hequals : ∀ cs, LeadsWith (fun c => ¬c.isDigit) ('=' :: cs) :=
    fun cs => leadsWith_cons.2 (by decide)
  obtain ⟨hvalue, htail⟩ := Value.readsOff_render trivial trivial (hequals _) (hequals _) h
  exact ⟨hvalue, (List.cons.inj htail).2⟩

/-- A value at the end of a step. -/
theorem result_unique {v w : Value} (hrest : LeadsWith (· = ',') rest)
    (hrest' : LeadsWith (· = ',') rest') (h : v.render.toList ++ rest = w.render.toList ++ rest') :
    v = w ∧ rest = rest' :=
  Value.readsOff_render trivial trivial (not_isDigit_of_comma hrest) (not_isDigit_of_comma hrest') h

theorem roll_unique {term term' : DiceTerm} {faces faces' : List Face} {total total' : Number}
    (hrest : LeadsWith (· = ',') rest) (hrest' : LeadsWith (· = ',') rest')
    (h : (roll term faces total).text.toList ++ rest = (roll term' faces' total').text.toList ++ rest') :
    roll term faces total = roll term' faces' total' ∧ rest = rest' := by
  rw [roll_append, roll_append] at h
  obtain ⟨rfl, hbrackets⟩ := DiceTerm.readsOff_text trivial trivial (leadsWith_cons.2 rfl)
    (leadsWith_cons.2 rfl) h
  have hfaces := (List.cons.inj (List.cons.inj hbrackets).2).2
  obtain ⟨rfl, htotal⟩ := Face.separates_comma.readsOff_intercalate (fun _ _ => trivial)
    (fun _ _ => trivial) rfl rfl hfaces
  obtain ⟨rfl, hend⟩ := Number.readsOff_text trivial trivial (not_isDigit_of_comma hrest)
    (not_isDigit_of_comma hrest') (List.cons.inj (List.cons.inj htotal).2).2
  exact ⟨rfl, hend⟩

theorem unary_unique {op op' : UnaryOperator} {operand operand' result result' : Value}
    (hrest : LeadsWith (· = ',') rest) (hrest' : LeadsWith (· = ',') rest')
    (h : (unary op operand result).text.toList ++ rest =
      (unary op' operand' result').text.toList ++ rest') :
    unary op operand result = unary op' operand' result' ∧ rest = rest' := by
  rw [unary_append, unary_append] at h
  obtain ⟨rfl, hoperand⟩ := UnaryOperator.readsOff_text trivial trivial trivial trivial h
  obtain ⟨rfl, hresult⟩ := operand_unique hoperand
  obtain ⟨rfl, hend⟩ := result_unique hrest hrest' hresult
  exact ⟨rfl, hend⟩

theorem binary_unique {left left' right right' result result' : Value} {op op' : BinaryOperator}
    (hrest : LeadsWith (· = ',') rest) (hrest' : LeadsWith (· = ',') rest')
    (h : (binary left op right result).text.toList ++ rest =
      (binary left' op' right' result').text.toList ++ rest') :
    binary left op right result = binary left' op' right' result' ∧ rest = rest' := by
  rw [binary_append, binary_append] at h
  obtain ⟨rfl, hop⟩ := Value.readsOff_render trivial trivial (op.leadsWith_text _)
    (op'.leadsWith_text _) h
  obtain ⟨rfl, hoperand⟩ := BinaryOperator.readsOff_text trivial trivial (right.leadsWith_render _)
    (right'.leadsWith_render _) hop
  obtain ⟨rfl, hresult⟩ := operand_unique hoperand
  obtain ⟨rfl, hend⟩ := result_unique hrest hrest' hresult
  exact ⟨rfl, hend⟩

/-- A name and a value with the same sign between them. -/
theorem named_unique {name name' : String} {value value' : Value} {sign : Char} (hsign : ¬isNamePart sign)
    (signs : List Char) (hname : IsName name) (hname' : IsName name') (hrest : LeadsWith (· = ',') rest)
    (hrest' : LeadsWith (· = ',') rest')
    (h : name.toList ++ sign :: (signs ++ (value.render.toList ++ rest)) =
      name'.toList ++ sign :: (signs ++ (value'.render.toList ++ rest'))) :
    name = name' ∧ value = value' ∧ rest = rest' := by
  obtain ⟨hnames, htail⟩ := readsOff_name hname hname' (leadsWith_cons.2 hsign) (leadsWith_cons.2 hsign) h
  have hvalue := List.append_cancel_left (List.cons.inj htail).2
  exact ⟨hnames, result_unique hrest hrest' hvalue⟩

theorem load_unique {name name' : String} {value value' : Value}
    (hname : (load name value).Named) (hname' : (load name' value').Named)
    (hrest : LeadsWith (· = ',') rest) (hrest' : LeadsWith (· = ',') rest')
    (h : (load name value).text.toList ++ rest = (load name' value').text.toList ++ rest') :
    load name value = load name' value' ∧ rest = rest' := by
  rw [load_append, load_append] at h
  obtain ⟨rfl, rfl, hend⟩ := named_unique (by decide) [] hname hname' hrest hrest' h
  exact ⟨rfl, hend⟩

theorem store_unique {name name' : String} {value value' : Value}
    (hname : (store name value).Named) (hname' : (store name' value').Named)
    (hrest : LeadsWith (· = ',') rest) (hrest' : LeadsWith (· = ',') rest')
    (h : (store name value).text.toList ++ rest = (store name' value').text.toList ++ rest') :
    store name value = store name' value' ∧ rest = rest' := by
  rw [store_append, store_append] at h
  obtain ⟨rfl, rfl, hend⟩ := named_unique (by decide) ['='] hname hname' hrest hrest' h
  exact ⟨rfl, hend⟩

/-- A step stops where a comma follows or nothing at all, and tells its kind and all its parts.  The cases are the
pairs of kinds: two steps of one kind are read off part by part, and two different kinds either begin with
characters of different sorts or are one of the three pairs above. -/
theorem readsOff_text : ReadsOff (fun step : Step => step.text.toList) Named (LeadsWith (· = ',')) := by
  intro step other rest rest' hstep hother hrest hrest' h
  have hlead := exists_common_lead hstep hother h
  cases step with
  | roll =>
    cases other with
    | roll => exact roll_unique hrest hrest' h
    | binary => exact absurd h (roll_ne_binary _ _ _ _ _ _ _)
    | _ => simp [leads] at hlead
  | unary =>
    cases other with
    | unary => exact unary_unique hrest hrest' h
    | binary => exact absurd h (unary_ne_binary _ _ _ _ _ _ _)
    | _ => simp [leads] at hlead
  | binary =>
    cases other with
    | roll => exact absurd h.symm (roll_ne_binary _ _ _ _ _ _ _)
    | unary => exact absurd h.symm (unary_ne_binary _ _ _ _ _ _ _)
    | binary => exact binary_unique hrest hrest' h
    | _ => simp [leads] at hlead
  | load =>
    cases other with
    | load => exact load_unique hstep hother hrest hrest' h
    | store => exact absurd h (load_ne_store hstep hother _ _)
    | _ => simp [leads] at hlead
  | store =>
    cases other with
    | load => exact absurd h.symm (load_ne_store hother hstep _ _)
    | store => exact store_unique hstep hother hrest hrest' h
    | _ => simp [leads] at hlead

/-- Steps with commas and blanks between them stop where the text does. -/
theorem separates_comma :
    Separates (fun step : Step => step.text.toList) Named (LeadsWith (· = ',')) [',', ' '] (· = []) where
  readsOff := readsOff_text
  follow_sep _ := leadsWith_cons.2 rfl
  follow_stop cs hcs c hc := by
    rw [hcs] at hc
    cases hc
  stop_ne_sep cs h := by cases h
  stop_ne_write step cs hstep h := by
    obtain ⟨c, rest, lead, htext, -⟩ := exists_lead_text hstep
    rw [htext] at h
    cases h

end Step

/-! ## Traces -/

theorem Trace.toList_text (t : Trace) :
    t.text.toList = [',', ' '].intercalate (t.steps.map fun step => step.text.toList) := by
  simp [text, String.toList_intercalate, Function.comp_def]

/-- Traces that are shown in the same way are the same. -/
theorem Trace.eq_of_text_eq {t u : Trace} (ht : ∀ step ∈ t.steps, step.Named)
    (hu : ∀ step ∈ u.steps, step.Named) (h : t.text = u.text) : t = u := by
  have hchars : [',', ' '].intercalate (t.steps.map fun step => step.text.toList) ++ [] =
      [',', ' '].intercalate (u.steps.map fun step => step.text.toList) ++ [] := by
    rw [← toList_text, ← toList_text, h]
  obtain ⟨hsteps, -⟩ := Step.separates_comma.readsOff_intercalate ht hu rfl rfl hchars
  cases t
  cases u
  exact congrArg mk (Array.toList_inj.1 hsteps)

/-- A text that is no name can be mistaken for two steps. -/
example :
    ({ log := #[.load "a=1, b" (.number 2)] } : Trace).text =
      ({ log := #[.load "a" (.number 1), .load "b" (.number 2)] } : Trace).text := by
  cbv

end Tabletop
