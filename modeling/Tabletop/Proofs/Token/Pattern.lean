import Tabletop.Proofs.Token.Longest

/-!
# The patterns of tokens

`TokenKind.pattern` says which texts a token of a kind can have, as a regular language.
`isLongest_matchLength?` says that matching finds the longest text of that language in front of a source
text, or that there is none.  Two kinds never have a text in common, but for dice terms that are names
too (`eq_of_mem_pattern`).
-/

namespace Tabletop

open Text
open scoped Computability

namespace TokenKind

/-! ## The languages of the kinds -/

/-- One part of what stands inside a string: a character that is neither a quote nor a backslash, or a
backslash with any character behind it that does not end the line. -/
def stringPart : Language Char :=
  oneChar (fun c => c ≠ '"' ∧ c ≠ '\\') + oneChar (· = '\\') * oneChar (· ≠ '\n')

/-- `[0-9]+` -/
def numeral : Language Char :=
  oneChar (·.isDigit) * (oneChar (·.isDigit))∗

/-- `[kp][hl]?[0-9]*` -/
def modifier : Language Char :=
  oneChar (fun c => c = 'k' ∨ c = 'p') * (1 + oneChar fun c => c = 'h' ∨ c = 'l')
    * (oneChar (·.isDigit))∗

/-- `[0-9]*[dD]([0-9]+|%)([kp][hl]?[0-9]*)?` -/
def diceTerm : Language Char :=
  (oneChar (·.isDigit))∗ * oneChar (fun c => c = 'd' ∨ c = 'D') * (numeral + {['%']})
    * (1 + modifier)

/-- The one spelling of a kind that has only one. -/
def spelled (kind : TokenKind) : Language Char :=
  {cs | ∃ spelling, kind.spelling? = some spelling ∧ cs = spelling.toList}

/-- The texts that a token of a kind can have. -/
def pattern : TokenKind → Language Char
  | integer => numeral
  | dice => diceTerm
  | identifier => oneChar (isNameStart ·) * (oneChar (isNamePart ·))∗
  | string => oneChar (· = '"') * stringPart∗ * oneChar (· = '"')
  | template =>
    oneChar (· = templateMark) * (oneChar (· ≠ templateMark))∗ * oneChar (· = templateMark)
  | unclosedString => oneChar (· = '"') * stringPart∗
  | unclosedTemplate => oneChar (· = templateMark) * (oneChar (· ≠ templateMark))∗
  | kind => kind.spelled

theorem mem_stringPart {us : List Char} :
    us ∈ stringPart ↔
      (∃ c, (c ≠ '"' ∧ c ≠ '\\') ∧ us = [c]) ∨ ∃ c, c ≠ '\n' ∧ us = ['\\', c] := by
  rw [stringPart, Language.mem_add, mem_oneChar_mul]
  constructor
  · rintro (h | ⟨_, _, rfl, ⟨c, hc, rfl⟩, rfl⟩)
    · exact .inl h
    · exact .inr ⟨c, hc, rfl⟩
  · rintro (h | ⟨c, hc, rfl⟩)
    · exact .inl h
    · exact .inr ⟨_, _, rfl, ⟨c, hc, rfl⟩, rfl⟩

theorem isCode_stringPart : IsCode stringPart := by
  intro us hus vs hvs xs ys h
  rcases mem_stringPart.1 hus with ⟨c, hc, rfl⟩ | ⟨c, _, rfl⟩ <;>
    rcases mem_stringPart.1 hvs with ⟨d, hd, rfl⟩ | ⟨d, _, rfl⟩
  · obtain ⟨rfl, rfl⟩ := List.cons.inj h
    exact ⟨rfl, rfl⟩
  · exact absurd (List.cons.inj h).1 hc.2
  · exact absurd (List.cons.inj h).1.symm hd.2
  · obtain ⟨rfl, rfl⟩ := List.cons.inj (List.cons.inj h).2
    exact ⟨rfl, rfl⟩

theorem isLongest_stringRun (cs : List Char) : IsLongest stringPart∗ cs (some (stringRun cs)) := by
  fun_induction stringRun cs with
  | case1 =>
    refine .kstar_zero fun us hus hfront => ?_
    obtain rfl := List.prefix_nil.1 hfront
    rcases mem_stringPart.1 hus with ⟨_, _, h⟩ | ⟨_, _, h⟩ <;> cases h
  | case2 cs =>
    refine .kstar_zero fun us hus hfront => ?_
    rcases mem_stringPart.1 hus with ⟨d, hd, rfl⟩ | ⟨d, hd, rfl⟩
    · exact hd.2 (List.cons_prefix_cons.1 hfront).1
    · exact hd (List.cons_prefix_cons.1 (List.cons_prefix_cons.1 hfront).2).1
  | case3 c cs hc ih =>
    exact .kstar_append isCode_stringPart (mem_stringPart.2 (.inr ⟨c, hc, rfl⟩)) ih
  | case4 c cs hc hend =>
    refine .kstar_zero fun us hus hfront => ?_
    rcases mem_stringPart.1 hus with ⟨d, hd, rfl⟩ | ⟨d, hd, rfl⟩
    · obtain rfl := (List.cons_prefix_cons.1 hfront).1
      simp [hd.1, hd.2] at hend
    · obtain ⟨rfl, rest, rfl⟩ := List.cons_prefix_cons.1 hfront
      exact hc d rest rfl rfl
  | case5 c cs hc hend ih =>
    refine .kstar_append isCode_stringPart (mem_stringPart.2 (.inl ⟨c, ?_, rfl⟩)) ih
    simpa using hend

/-- What stands inside a string does not go on behind a quote. -/
theorem string_stop (us vs : List Char) (hus : us ∈ stringPart∗) : us ++ '"' :: vs ∉ stringPart∗ := by
  refine isCode_stringPart.notMem_kstar (fun part hpart => ?_) hus vs
  rcases mem_stringPart.1 hpart with ⟨c, hc, rfl⟩ | ⟨c, _, rfl⟩
  · exact ⟨c, [], rfl, hc.1⟩
  · exact ⟨_, [c], rfl, by decide⟩

/-- What stands inside a template does not go on behind a backtick. -/
theorem template_stop (us vs : List Char) (_hus : us ∈ (oneChar (· ≠ templateMark))∗) :
    us ++ templateMark :: vs ∉ (oneChar (· ≠ templateMark))∗ := by
  intro hmem
  exact mem_kstar_oneChar.1 hmem templateMark (by simp) rfl

theorem isLongest_templateRun (cs : List Char) :
    IsLongest (oneChar (· ≠ templateMark))∗ cs (some (templateRun cs)) := by
  have h := IsLongest.runLength (· != templateMark) cs
  simp only [bne_iff_ne] at h
  exact h

theorem exists_cons_of_mem_numeral {us : List Char} (h : us ∈ numeral) :
    ∃ c vs, c.isDigit ∧ us = c :: vs := by
  obtain ⟨c, vs, hc, _, rfl⟩ := mem_oneChar_mul.1 h
  exact ⟨c, vs, hc, rfl⟩

theorem isDigit_of_mem_numeral {us : List Char} (h : us ∈ numeral) : ∀ c ∈ us, c.isDigit := by
  obtain ⟨c, vs, hc, hvs, rfl⟩ := mem_oneChar_mul.1 h
  exact List.forall_mem_cons.2 ⟨hc, mem_kstar_oneChar.1 hvs⟩

theorem isLongest_sidesLength? (cs : List Char) :
    IsLongest (numeral + {['%']}) cs (sidesLength? cs) := by
  unfold sidesLength?
  split
  · rename_i rest
    refine ⟨⟨['%'], by simp, .inr rfl, rfl⟩, ?_⟩
    rintro us hfront (hus | rfl)
    · obtain ⟨c, vs, hc, rfl⟩ := exists_cons_of_mem_numeral hus
      obtain rfl := (List.cons_prefix_cons.1 hfront).1
      exact absurd hc (by decide)
    · exact Nat.le_refl 1
  · rename_i hpercent
    have h := IsLongest.positive? Char.isDigit cs
    have hnone : ∀ us, us <+: cs → us ∉ ({['%']} : Language Char) := by
      rintro us ⟨rest, rfl⟩ rfl
      exact hpercent rest rfl
    revert h
    unfold digitRun
    generalize positive? (runLength Char.isDigit cs) = n
    intro h
    cases n with
    | none =>
      rintro us hus (hmem | hmem)
      · exact h us hus hmem
      · exact hnone us hus hmem
    | some n =>
      obtain ⟨⟨us, hus, hmem, hlength⟩, hmax⟩ := h
      refine ⟨⟨us, hus, .inl hmem, hlength⟩, ?_⟩
      rintro vs hvs (hmem | hmem)
      · exact hmax vs hvs hmem
      · exact absurd hmem (hnone vs hvs)

/-- A letter that may be missing, and digits. -/
theorem isLongest_selector (cs : List Char) :
    IsLongest ((1 + oneChar fun c => c = 'h' ∨ c = 'l') * (oneChar (·.isDigit))∗) cs
      (some (if cs.head?.any fun c => c = 'h' ∨ c = 'l' then digitRun cs.tail + 1
        else digitRun cs)) := by
  have hletter := (IsLongest.oneChar (fun c => c = 'h' ∨ c = 'l') cs).optional
  by_cases hc : cs.head?.any fun c => c = 'h' ∨ c = 'l'
  · rw [if_pos hc] at hletter ⊢
    have h := hletter.mul (IsLongest.runLength Char.isDigit (cs.drop 1)) ?_
    · rwa [List.drop_one, Option.map_some, Nat.add_comm] at h
    · intro us vs _ hvs hfront hlt
      obtain rfl : us = [] := List.length_eq_zero_iff.1 (Nat.lt_one_iff.1 hlt)
      -- the letter is no digit
      cases vs with
      | nil => rfl
      | cons d vs =>
        obtain ⟨rest, rfl⟩ := hfront
        have hd : d.isDigit := mem_kstar_oneChar.1 hvs d List.mem_cons_self
        have hletter : d = 'h' ∨ d = 'l' := by simpa using hc
        rcases hletter with rfl | rfl <;> exact absurd hd (by decide)
  · rw [if_neg hc] at hletter ⊢
    have h := hletter.mul (IsLongest.runLength Char.isDigit (cs.drop 0)) ?_
    · simpa [digitRun] using h
    · intro us vs _ _ _ hlt
      exact absurd hlt (Nat.not_lt_zero _)

theorem modifierLength_cons (c : Char) (cs : List Char) :
    modifierLength (c :: cs) =
      if c = 'k' ∨ c = 'p' then
        (if cs.head?.any fun c => c = 'h' ∨ c = 'l' then digitRun cs.tail + 1 else digitRun cs) + 1
      else 0 := by
  have hbegins : DiceTerm.beginsModifier c = decide (c = 'k' ∨ c = 'p') := by
    simp [DiceTerm.beginsModifier]
  unfold modifierLength
  simp only [hbegins]
  by_cases hc : c = 'k' ∨ c = 'p'
  · simp only [hc, decide_true, if_true]
    split
    · rfl
    · rfl
    · rename_i hh hl
      have hletter : ¬(cs.head?.any fun c => c = 'h' ∨ c = 'l') := by
        cases cs with
        | nil => simp
        | cons d ds =>
          simp only [List.head?_cons, Option.any_some, decide_eq_true_eq]
          rintro (rfl | rfl)
          · exact hh ds rfl
          · exact hl ds rfl
      rw [if_neg hletter]
  · simp [hc]

theorem isLongest_modifierLength (cs : List Char) :
    IsLongest (1 + modifier) cs (some (modifierLength cs)) := by
  rw [modifier, mul_assoc]
  cases cs with
  | nil => exact IsLongest.oneChar_mul_nil.optional
  | cons c cs =>
    have h := (IsLongest.oneChar_mul (p := fun c => c = 'k' ∨ c = 'p') c
      (isLongest_selector cs)).optional
    rw [modifierLength_cons]
    by_cases hc : c = 'k' ∨ c = 'p'
    · rw [if_pos hc] at h ⊢
      exact h
    · rw [if_neg hc] at h ⊢
      exact h

/-- Sides, and a modifier that may be missing. -/
theorem isLongest_sides (cs : List Char) :
    IsLongest ((numeral + {['%']}) * (1 + modifier)) cs
      ((sidesLength? cs).map fun n => n + modifierLength (cs.drop n)) := by
  have hsides := isLongest_sidesLength? cs
  cases hlength : sidesLength? cs with
  | none =>
    rw [hlength] at hsides
    exact hsides.mul_none
  | some n =>
    rw [hlength] at hsides
    refine hsides.mul (isLongest_modifierLength (cs.drop n)) ?_
    rintro us vs hus (rfl | hvs) hfront hlt
    · rfl
    · rw [modifier, mul_assoc] at hvs
      obtain ⟨c, vs, hc, _, rfl⟩ := mem_oneChar_mul.1 hvs
      obtain ⟨rest, hmem | hmem⟩ := hsides.goes_on hfront hlt
      · have hdigit := isDigit_of_mem_numeral hmem c (by simp)
        rcases hc with rfl | rfl <;> exact absurd hdigit (by decide)
      · have hpercent : c ∈ ['%'] := (show us ++ c :: rest = ['%'] from hmem) ▸ by simp
        rcases hc with rfl | rfl <;> exact absurd hpercent (by decide)

theorem isLongest_diceLength? (cs : List Char) : IsLongest diceTerm cs (diceLength? cs) := by
  rw [diceTerm, mul_assoc, mul_assoc]
  have hcount := IsLongest.runLength Char.isDigit cs
  -- a delimiter is no digit, and so no count goes on with one
  have hsplit : ∀ us vs, us ∈ (oneChar (·.isDigit))∗ →
      vs ∈ oneChar (fun c => c = 'd' ∨ c = 'D') * ((numeral + {['%']}) * (1 + modifier)) →
      us ++ vs <+: cs → us.length < digitRun cs → vs = [] := by
    intro us vs _ hvs hfront hlt
    obtain ⟨c, vs, hc, _, rfl⟩ := mem_oneChar_mul.1 hvs
    obtain ⟨rest, hmem⟩ := hcount.goes_on hfront hlt
    have hdigit := mem_kstar_oneChar.1 hmem c (by simp)
    rcases hc with rfl | rfl <;> exact absurd hdigit (by decide)
  unfold diceLength?
  cases hdrop : cs.drop (digitRun cs) with
  | nil =>
    refine hcount.mul (m := none) ?_ hsplit
    show IsLongest _ (cs.drop (digitRun cs)) none
    rw [hdrop]
    exact .oneChar_mul_nil
  | cons c rest =>
    have hterm := IsLongest.oneChar_mul (p := fun c => c = 'd' ∨ c = 'D') c (isLongest_sides rest)
    rw [← hdrop] at hterm
    have h := hcount.mul hterm hsplit
    have hdelimiter : DiceTerm.isDelimiter c = decide (c = 'd' ∨ c = 'D') := by
      simp [DiceTerm.isDelimiter]
    simp only [hdelimiter, decide_eq_true_eq]
    by_cases hc : c = 'd' ∨ c = 'D'
    · rw [if_pos hc] at h ⊢
      rw [Option.map_map, Option.map_map] at h
      convert h using 3
      rename_i n
      show digitRun cs + 1 + n + _ = digitRun cs + (n + _ + 1)
      omega
    · rw [if_neg hc] at h ⊢
      exact h

theorem isLongest_spelled (kind : TokenKind) (cs : List Char) :
    IsLongest kind.spelled cs
      (kind.spelling?.bind fun spelling => spellingLength? spelling.toList cs) := by
  cases hkind : kind.spelling? with
  | none =>
    rintro us _ ⟨spelling, hspelling, _⟩
    rw [hkind] at hspelling
    cases hspelling
  | some spelling =>
    have hspelled : kind.spelled = {spelling.toList} := by
      ext us
      simp only [spelled, hkind, Option.some.injEq]
      constructor
      · rintro ⟨_, rfl, rfl⟩
        rfl
      · rintro rfl
        exact ⟨spelling, rfl, rfl⟩
    rw [hspelled]
    exact .spellingLength? spelling.toList cs

/-- Matching finds the longest text of the kind's language. -/
theorem isLongest_matchLength? (kind : TokenKind) (cs : List Char) :
    IsLongest kind.pattern cs (kind.matchLength? cs) := by
  cases kind with
  | integer => exact .positive? Char.isDigit cs
  | dice => exact isLongest_diceLength? cs
  | identifier =>
    cases cs with
    | nil => exact .oneChar_mul_nil
    | cons c cs => exact .oneChar_mul c (.runLength isNamePart cs)
  | string => exact isLongest_enclosedLength? isLongest_stringRun string_stop cs
  | template => exact isLongest_enclosedLength? isLongest_templateRun template_stop cs
  | unclosedString => exact isLongest_openLength? isLongest_stringRun cs
  | unclosedTemplate => exact isLongest_openLength? isLongest_templateRun cs
  | _ => exact isLongest_spelled _ cs

/-! ## Texts that two kinds have in common -/

/-- The sorts of characters that begin tokens. -/
inductive Lead where
  | digit
  | letter
  | quote
  | backtick
  | sign
  deriving DecidableEq, Repr

/-- The sort of a character, if it begins tokens. -/
def lead? (c : Char) : Option Lead :=
  if c.isDigit then some .digit
  else if isNameStart c then some .letter
  else if c = '"' then some .quote
  else if c = templateMark then some .backtick
  else if c ∈ ['(', ')', ';', '?', ':', '+', '-', '*', '/', '%', '!', '=', '<', '>', '&', '|'] then
    some .sign
  else none

/-- The sorts of characters with which a token of a kind can begin. -/
def leads : TokenKind → List Lead
  | integer => [.digit]
  | dice => [.digit, .letter]
  | identifier => [.letter]
  | string | unclosedString => [.quote]
  | template | unclosedTemplate => [.backtick]
  | unknown => []
  | _ => [.sign]

/-- The digits and the letters of names lie in different ranges. -/
theorem not_isDigit_of_isNameStart {c : Char} (h : isNameStart c) : ¬c.isDigit := by
  intro hdigit
  simp only [Char.isDigit, Bool.and_eq_true, decide_eq_true_eq] at hdigit
  have hlow : 48 ≤ c.toNat := hdigit.1
  have hhigh : c.toNat ≤ 57 := hdigit.2
  simp only [isNameStart, Bool.or_eq_true, decide_eq_true_eq] at h
  rcases h with (rfl | halpha) | hhan
  · exact absurd hhigh (by decide)
  · rcases Bool.or_eq_true_iff.1 (halpha : (c.isUpper || c.isLower) = true) with hupper | hlower
    · have hupper : c.val ≥ 'A'.val ∧ c.val ≤ 'Z'.val := of_decide_eq_true hupper
      have habove : 65 ≤ c.toNat := hupper.1
      omega
    · have hbelow : c.val ≥ 'a'.val := of_decide_eq_true (Bool.and_eq_true_iff.1 hlower).1
      have habove : 97 ≤ c.toNat := hbelow
      omega
  · simp [isHan, han, Ranges.covers] at hhan
    omega

theorem exists_lead_of_spelling? {kind : TokenKind} {spelling : String}
    (h : kind.spelling? = some spelling) :
    ∃ c vs, spelling.toList = c :: vs ∧ lead? c = some .sign := by
  have hlead : spelling.toList.head?.bind lead? = some .sign := by
    cases kind <;> cases h <;> decide
  cases htext : spelling.toList with
  | nil =>
    rw [htext] at hlead
    cases hlead
  | cons c vs =>
    rw [htext] at hlead
    exact ⟨c, vs, rfl, hlead⟩

theorem exists_delimiter_of_mem_diceTerm {us : List Char} (h : us ∈ diceTerm) :
    ∃ ds c rest, (∀ d ∈ ds, d.isDigit) ∧ (c = 'd' ∨ c = 'D') ∧ us = ds ++ c :: rest := by
  rw [diceTerm, mul_assoc, mul_assoc, Language.mem_mul] at h
  obtain ⟨ds, hds, vs, hvs, rfl⟩ := h
  obtain ⟨c, rest, hc, _, rfl⟩ := mem_oneChar_mul.1 hvs
  exact ⟨ds, c, rest, mem_kstar_oneChar.1 hds, hc, rfl⟩

/-- A token begins with a character of one of the sorts of its kind. -/
theorem exists_lead_of_mem_pattern {kind : TokenKind} {us : List Char} (h : us ∈ kind.pattern) :
    ∃ c vs lead, us = c :: vs ∧ lead? c = some lead ∧ lead ∈ kind.leads := by
  have hspelled : us ∈ kind.spelled → .sign ∈ kind.leads →
      ∃ c vs lead, us = c :: vs ∧ lead? c = some lead ∧ lead ∈ kind.leads := by
    rintro ⟨spelling, hspelling, rfl⟩ hsign
    obtain ⟨c, vs, htext, hlead⟩ := exists_lead_of_spelling? hspelling
    exact ⟨c, vs, .sign, htext, hlead, hsign⟩
  cases kind with
  | integer =>
    obtain ⟨c, vs, hc, _, rfl⟩ := mem_oneChar_mul.1 h
    exact ⟨c, vs, .digit, rfl, if_pos hc, by decide⟩
  | dice =>
    obtain ⟨ds, c, rest, hds, hc, rfl⟩ := exists_delimiter_of_mem_diceTerm h
    cases ds with
    | nil => exact ⟨c, rest, .letter, rfl, by rcases hc with rfl | rfl <;> decide, by decide⟩
    | cons d ds => exact ⟨d, _, .digit, rfl, if_pos (hds d List.mem_cons_self), by decide⟩
  | identifier =>
    obtain ⟨c, vs, hc, _, rfl⟩ := mem_oneChar_mul.1 h
    refine ⟨c, vs, .letter, rfl, ?_, by decide⟩
    rw [lead?, if_neg (not_isDigit_of_isNameStart hc), if_pos hc]
  | string =>
    obtain ⟨vs, d, hvs, _, rfl⟩ := mem_mul_oneChar.1 h
    obtain ⟨c, vs, rfl, _, rfl⟩ := mem_oneChar_mul.1 hvs
    exact ⟨_, _, .quote, rfl, by decide, by decide⟩
  | template =>
    obtain ⟨vs, d, hvs, _, rfl⟩ := mem_mul_oneChar.1 h
    obtain ⟨c, vs, rfl, _, rfl⟩ := mem_oneChar_mul.1 hvs
    exact ⟨_, _, .backtick, rfl, by decide, by decide⟩
  | unclosedString =>
    obtain ⟨c, vs, rfl, _, rfl⟩ := mem_oneChar_mul.1 h
    exact ⟨_, _, .quote, rfl, by decide, by decide⟩
  | unclosedTemplate =>
    obtain ⟨c, vs, rfl, _, rfl⟩ := mem_oneChar_mul.1 h
    exact ⟨_, _, .backtick, rfl, by decide, by decide⟩
  | unknown =>
    obtain ⟨spelling, hspelling, _⟩ := h
    cases hspelling
  | _ => exact hspelled h (by decide)

theorem mem_patterned {kind : TokenKind} (h : kind ≠ unknown) : kind ∈ patterned := by
  revert h
  cases kind <;> decide

theorem eq_of_spelling? {kind other : TokenKind} {spelling : String}
    (h : kind.spelling? = some spelling) (h' : other.spelling? = some spelling) : kind = other := by
  have hall : ∀ kind ∈ patterned, ∀ other ∈ patterned, kind.spelling? = other.spelling? →
      kind.spelling? = none ∨ kind = other := by decide
  have hpatterned : ∀ {kind : TokenKind}, kind.spelling? = some spelling → kind ∈ patterned := by
    rintro kind hkind
    refine mem_patterned ?_
    rintro rfl
    cases hkind
  rcases hall kind (hpatterned h) other (hpatterned h') (h.trans h'.symm) with hnone | heq
  · rw [h] at hnone
    cases hnone
  · exact heq

theorem of_digit_mem_leads {kind : TokenKind} :
    .digit ∈ kind.leads → kind = integer ∨ kind = dice := by
  cases kind <;> decide

theorem of_letter_mem_leads {kind : TokenKind} :
    .letter ∈ kind.leads → kind = dice ∨ kind = identifier := by
  cases kind <;> decide

theorem of_quote_mem_leads {kind : TokenKind} :
    .quote ∈ kind.leads → kind = string ∨ kind = unclosedString := by
  cases kind <;> decide

theorem of_backtick_mem_leads {kind : TokenKind} :
    .backtick ∈ kind.leads → kind = template ∨ kind = unclosedTemplate := by
  cases kind <;> decide

theorem pattern_of_sign_mem_leads {kind : TokenKind} (h : .sign ∈ kind.leads) :
    kind.pattern = kind.spelled := by
  cases kind <;> first | rfl | exact absurd h (by decide)

theorem notMem_diceTerm_of_mem_numeral {us : List Char} (h : us ∈ numeral) : us ∉ diceTerm := by
  intro hdice
  obtain ⟨ds, c, rest, _, hc, rfl⟩ := exists_delimiter_of_mem_diceTerm hdice
  have hdigit := isDigit_of_mem_numeral h c (by simp)
  rcases hc with rfl | rfl <;> exact absurd hdigit (by decide)

/-- What is closed cannot be gone on with, neither as an open text nor as a closed one. -/
theorem notMem_open_of_mem_enclosed {mark : Char} {L : Language Char} {us : List Char}
    (hstop : ∀ us vs, us ∈ L → us ++ mark :: vs ∉ L)
    (h : us ∈ oneChar (· = mark) * L * oneChar (· = mark)) (rest : List Char) :
    us ++ rest ∉ oneChar (· = mark) * L := by
  obtain ⟨body, hbody, rfl⟩ := mem_enclosed_iff.1 h
  intro hopen
  obtain ⟨c', body', _, hbody', hsplit⟩ := mem_oneChar_mul.1 hopen
  rw [List.append_assoc, List.cons_append, List.singleton_append] at hsplit
  obtain ⟨_, rfl⟩ := List.cons.inj hsplit
  exact hstop body rest hbody hbody'

theorem notMem_enclosed_of_mem_enclosed {mark : Char} {L : Language Char} {us : List Char}
    (hstop : ∀ us vs, us ∈ L → us ++ mark :: vs ∉ L)
    (h : us ∈ oneChar (· = mark) * L * oneChar (· = mark)) {rest : List Char} (hrest : rest ≠ []) :
    us ++ rest ∉ oneChar (· = mark) * L * oneChar (· = mark) := by
  rcases List.eq_nil_or_concat rest with rfl | ⟨inner, last, rfl⟩
  · exact absurd rfl hrest
  · intro henclosed
    obtain ⟨vs, d, hvs, _, hsplit⟩ := mem_mul_oneChar.1 henclosed
    rw [List.concat_eq_append, ← List.append_assoc] at hsplit
    obtain ⟨rfl, _⟩ := List.append_inj' hsplit rfl
    exact notMem_open_of_mem_enclosed hstop h inner hvs

/-- No text is that of two kinds, but for dice terms that are names too. -/
theorem eq_of_mem_pattern {kind other : TokenKind} {us : List Char} (h : us ∈ kind.pattern)
    (h' : us ∈ other.pattern) :
    kind = other ∨ kind = dice ∧ other = identifier ∨ kind = identifier ∧ other = dice := by
  obtain ⟨c, vs, lead, rfl, hlead, hkind⟩ := exists_lead_of_mem_pattern h
  obtain ⟨c', vs', lead', hsplit, hlead', hother⟩ := exists_lead_of_mem_pattern h'
  obtain ⟨rfl, rfl⟩ := List.cons.inj hsplit
  obtain rfl : lead = lead' := Option.some.inj (hlead.symm.trans hlead')
  cases lead with
  | digit =>
    rcases of_digit_mem_leads hkind with rfl | rfl <;>
      rcases of_digit_mem_leads hother with rfl | rfl
    · exact .inl rfl
    · exact absurd h' (notMem_diceTerm_of_mem_numeral h)
    · exact absurd h (notMem_diceTerm_of_mem_numeral h')
    · exact .inl rfl
  | letter =>
    rcases of_letter_mem_leads hkind with rfl | rfl <;>
      rcases of_letter_mem_leads hother with rfl | rfl
    · exact .inl rfl
    · exact .inr (.inl ⟨rfl, rfl⟩)
    · exact .inr (.inr ⟨rfl, rfl⟩)
    · exact .inl rfl
  | quote =>
    have hclosed : c :: vs ∈ string.pattern → c :: vs ∉ unclosedString.pattern := fun hstring =>
      List.append_nil (c :: vs) ▸ notMem_open_of_mem_enclosed string_stop hstring []
    rcases of_quote_mem_leads hkind with rfl | rfl <;>
      rcases of_quote_mem_leads hother with rfl | rfl
    · exact .inl rfl
    · exact absurd h' (hclosed h)
    · exact absurd h (hclosed h')
    · exact .inl rfl
  | backtick =>
    have hclosed : c :: vs ∈ template.pattern → c :: vs ∉ unclosedTemplate.pattern := fun htemplate =>
      List.append_nil (c :: vs) ▸ notMem_open_of_mem_enclosed template_stop htemplate []
    rcases of_backtick_mem_leads hkind with rfl | rfl <;>
      rcases of_backtick_mem_leads hother with rfl | rfl
    · exact .inl rfl
    · exact absurd h' (hclosed h)
    · exact absurd h (hclosed h')
    · exact .inl rfl
  | sign =>
    rw [pattern_of_sign_mem_leads hkind] at h
    rw [pattern_of_sign_mem_leads hother] at h'
    obtain ⟨spelling, hspelling, htext⟩ := h
    obtain ⟨spelling', hspelling', htext'⟩ := h'
    obtain rfl : spelling = spelling' := String.toList_inj.1 (htext.symm.trans htext')
    exact .inl (eq_of_spelling? hspelling hspelling')

end TokenKind
end Tabletop
