import Mathlib.Algebra.Order.Kleene
import Mathlib.Order.CompletePartialOrder
import Tabletop.Proofs.Token.Scan

/-!
# Tokens that are kept apart

No token goes on across white space, a semicolon, a closing parenthesis or the mark at which a string or a template
begins, but for strings and templates, and these stop where they are closed.  So the tokens of a text are still its
tokens when more text is put behind a separator (`Token.Scans.append`).
-/

namespace Tabletop

open Text
open scoped Computability

namespace TokenKind

/-! ## What numbers, dice terms and names are made of -/

section

variable {L M N : Language Char}

theorem kstar_le_kstar (h : L ≤ N∗) : L∗ ≤ N∗ :=
  (kstar_mono h).trans_eq (kstar_idem _)

theorem mul_le_kstar (hL : L ≤ N∗) (hM : M ≤ N∗) : L * M ≤ N∗ :=
  (mul_le_mul' hL hM).trans_eq (kstar_mul_kstar _)

theorem one_add_le_kstar (h : L ≤ N∗) : 1 + L ≤ N∗ :=
  add_le one_le_kstar h

end

/-- A character of a number, a dice term or a name. -/
def IsWordPart (c : Char) : Prop :=
  isNamePart c ∨ c = '%'

instance : DecidablePred IsWordPart :=
  fun c => inferInstanceAs (Decidable (isNamePart c ∨ c = '%'))

/-- The texts that are made of such characters. -/
def word : Language Char :=
  (oneChar IsWordPart)∗

theorem oneChar_le_word {p : Char → Prop} (h : ∀ c, p c → IsWordPart c) : oneChar p ≤ word := by
  rintro us ⟨c, hc, rfl⟩
  exact mem_kstar_oneChar.2 (by simpa using h c hc)

theorem oneChar_pair_le_word {a b : Char} (ha : isNamePart a) (hb : isNamePart b) :
    (oneChar fun c => c = a ∨ c = b) ≤ word := by
  refine oneChar_le_word fun c hc => .inl ?_
  rcases hc with rfl | rfl
  · exact ha
  · exact hb

theorem digit_le_word : oneChar (·.isDigit) ≤ word := by
  refine oneChar_le_word fun c hc => .inl ?_
  rw [isNamePart, hc, Bool.or_true]

theorem numeral_le_word : numeral ≤ word :=
  mul_le_kstar digit_le_word (kstar_le_kstar digit_le_word)

theorem diceTerm_le_word : diceTerm ≤ word := by
  have hdigits := kstar_le_kstar digit_le_word
  have hpercent : ({['%']} : Language Char) ≤ word := by
    rintro us rfl
    exact mem_kstar_oneChar.2 (List.forall_mem_singleton.2 (.inr rfl))
  have hdelimiter := @oneChar_pair_le_word 'd' 'D' (by decide) (by decide)
  have hmode := @oneChar_pair_le_word 'k' 'p' (by decide) (by decide)
  have hselector := @oneChar_pair_le_word 'h' 'l' (by decide) (by decide)
  have hmodifier : modifier ≤ word :=
    mul_le_kstar (mul_le_kstar hmode (one_add_le_kstar hselector)) hdigits
  have hsides := add_le numeral_le_word hpercent
  exact mul_le_kstar (mul_le_kstar (mul_le_kstar hdigits hdelimiter) hsides)
    (one_add_le_kstar hmodifier)

theorem identifier_le_word : identifier.pattern ≤ word := by
  refine mul_le_kstar (oneChar_le_word fun c hc => .inl ?_) (kstar_le_kstar ?_)
  · rw [isNamePart, hc, Bool.true_or]
  · exact oneChar_le_word fun c hc => .inl hc

/-! ## Separators -/

/-- A character that ends every token but a string or a template. -/
def Separates (c : Char) : Prop :=
  isSpace c ∨ c = ';' ∨ c = ')' ∨ c = '"' ∨ c = templateMark

instance : DecidablePred Separates :=
  fun c => inferInstanceAs (Decidable (isSpace c ∨ c = ';' ∨ c = ')' ∨ c = '"' ∨ c = templateMark))

theorem Separates.not_isWordPart {c : Char} (h : Separates c) : ¬IsWordPart c := by
  simp only [Separates, isSpace, Bool.or_eq_true, decide_eq_true_eq] at h
  rcases h with (((rfl | rfl) | rfl) | rfl) | rfl | rfl | rfl | rfl <;> decide

/-- A separator is at most a token of its own. -/
theorem Separates.length_of_mem_spelled {c : Char} (h : Separates c) {kind : TokenKind}
    {us : List Char} (hus : us ∈ kind.spelled) (hmem : c ∈ us) : us.length = 1 := by
  obtain ⟨spelling, hspelling, rfl⟩ := hus
  have hall : spelling.toList.length = 1 ∨ spelling.toList.all fun c => ¬Separates c := by
    cases kind <;> cases hspelling <;> decide
  rcases hall with hlength | hall
  · exact hlength
  · exact absurd h (of_decide_eq_true (List.all_eq_true.1 hall c hmem))

/-- The kinds that a script can consist of; the others stand for text that is no token. -/
def IsProper (kind : TokenKind) : Prop :=
  kind ≠ unknown ∧ kind ≠ unclosedString ∧ kind ≠ unclosedTemplate

instance : DecidablePred IsProper :=
  fun kind => inferInstanceAs
    (Decidable (kind ≠ unknown ∧ kind ≠ unclosedString ∧ kind ≠ unclosedTemplate))

/-- The kinds whose texts stand between two marks. -/
def IsEnclosed (kind : TokenKind) : Prop :=
  kind = string ∨ kind = template

instance : DecidablePred IsEnclosed :=
  fun kind => inferInstanceAs (Decidable (kind = string ∨ kind = template))

/-- No token begins with a text between two marks and goes on. -/
theorem notMem_pattern_of_isEnclosed {kind other : TokenKind} {us rest : List Char}
    (hkind : kind.IsEnclosed) (hus : us ∈ kind.pattern) (hrest : rest ≠ []) :
    us ++ rest ∉ other.pattern := by
  intro hother
  obtain ⟨d, ds, lead, rfl, hlead, hleads⟩ := exists_lead_of_mem_pattern hus
  obtain ⟨d', ds', lead', hsplit, hlead', hleads'⟩ := exists_lead_of_mem_pattern hother
  obtain ⟨rfl, _⟩ := List.cons.inj hsplit
  obtain rfl : lead = lead' := Option.some.inj (hlead.symm.trans hlead')
  rcases hkind with rfl | rfl
  · obtain rfl : lead = .quote := List.mem_singleton.1 hleads
    rcases of_quote_mem_leads hleads' with rfl | rfl
    · exact notMem_enclosed_of_mem_enclosed string_stop hus hrest hother
    · exact notMem_open_of_mem_enclosed string_stop hus _ hother
  · obtain rfl : lead = .backtick := List.mem_singleton.1 hleads
    rcases of_backtick_mem_leads hleads' with rfl | rfl
    · exact notMem_enclosed_of_mem_enclosed template_stop hus hrest hother
    · exact notMem_open_of_mem_enclosed template_stop hus _ hother

/-- No token begins with the text of a proper token and goes on across a separator. -/
theorem notMem_pattern_of_separates {kind other : TokenKind} {us vs rest : List Char} {c : Char}
    (hkind : kind.IsProper) (hus : us ∈ kind.pattern) (hc : Separates c) :
    us ++ (vs ++ c :: rest) ∉ other.pattern := by
  intro hother
  have hmem : c ∈ us ++ (vs ++ c :: rest) := by simp
  have hword : us ++ (vs ++ c :: rest) ∉ word := fun hword =>
    hc.not_isWordPart (mem_kstar_oneChar.1 hword c hmem)
  have hrest : vs ++ c :: rest ≠ [] := by simp
  -- the text of the token decides with which sort of character both begin
  obtain ⟨d, ds, lead, rfl, hlead, hleads⟩ := exists_lead_of_mem_pattern hus
  obtain ⟨d', ds', lead', hsplit, hlead', hleads'⟩ := exists_lead_of_mem_pattern hother
  obtain ⟨rfl, _⟩ := List.cons.inj hsplit
  obtain rfl : lead = lead' := Option.some.inj (hlead.symm.trans hlead')
  cases lead with
  | digit =>
    rcases of_digit_mem_leads hleads' with rfl | rfl
    · exact hword (numeral_le_word hother)
    · exact hword (diceTerm_le_word hother)
  | letter =>
    rcases of_letter_mem_leads hleads' with rfl | rfl
    · exact hword (diceTerm_le_word hother)
    · exact hword (identifier_le_word hother)
  | quote =>
    rcases of_quote_mem_leads hleads with rfl | rfl
    · exact notMem_pattern_of_isEnclosed (.inl rfl) hus hrest hother
    · exact hkind.2.1 rfl
  | backtick =>
    rcases of_backtick_mem_leads hleads with rfl | rfl
    · exact notMem_pattern_of_isEnclosed (.inr rfl) hus hrest hother
    · exact hkind.2.2 rfl
  | sign =>
    rw [pattern_of_sign_mem_leads hleads'] at hother
    have hlength := hc.length_of_mem_spelled hother hmem
    simp at hlength

end TokenKind

namespace Token

open TokenKind

/-- A proper token is still the longest when more text follows behind a separator. -/
theorem Munches.separated {t : Token} {us : List Char} {c : Char} (h : t.Munches (t.text ++ us))
    (hproper : t.kind.IsProper) (hc : Separates c) (rest : List Char) :
    t.Munches (t.text ++ (us ++ c :: rest)) := by
  have htext := h.mem_pattern hproper.1
  refine ⟨List.prefix_append _ _, .inl ⟨htext, fun kind vs hvs hkind => ?_⟩⟩
  rw [← List.append_assoc] at hvs
  by_cases hlength : vs.length ≤ (t.text ++ us).length
  · have hfront := List.prefix_of_prefix_length_le hvs (List.prefix_append _ _) hlength
    rcases h.2 with ⟨_, hlongest⟩ | ⟨hunknown, _⟩
    · exact hlongest kind vs hfront hkind
    · exact absurd hunknown hproper.1
  · have hreaches : t.text ++ us ++ [c] <+: vs := by
      refine List.prefix_of_prefix_length_le (by simp) hvs ?_
      rw [List.length_append, List.length_singleton]
      omega
    obtain ⟨ws, rfl⟩ := hreaches
    rw [List.append_assoc, List.append_assoc, List.singleton_append] at hkind
    exact absurd hkind (notMem_pattern_of_separates hproper htext hc)

/-- Behind a separator the tokens of another text follow. -/
theorem Scans.append {start : Nat} {cs ds : List Char} {c : Char} {ts us : List Token}
    (h : Scans start cs ts) (hproper : ∀ t ∈ ts, t.kind.IsProper) (hc : Separates c)
    (hrest : Scans (start + width cs) (c :: ds) us) : Scans start (cs ++ c :: ds) (ts ++ us) := by
  induction h with
  | nil => exact hrest
  | space hspace _ ih =>
    rw [width_cons, ← Nat.add_assoc] at hrest
    exact .space hspace (ih hproper hrest)
  | token htext hspace hmunches _ ih =>
    obtain ⟨ht, hts⟩ := List.forall_mem_cons.1 hproper
    rw [width_append, ← Nat.add_assoc] at hrest
    rw [List.append_assoc]
    exact .token htext hspace (hmunches.separated ht hc ds) (ih hts hrest)

/-- White space in front makes no difference. -/
theorem Scans.spaces {start : Nat} {blanks cs : List Char} {ts : List Token}
    (hblanks : ∀ c ∈ blanks, isSpace c) (h : Scans (start + width blanks) cs ts) :
    Scans start (blanks ++ cs) ts := by
  induction blanks generalizing start with
  | nil => exact h
  | cons c blanks ih =>
    obtain ⟨hc, hblanks⟩ := List.forall_mem_cons.1 hblanks
    rw [width_cons, ← Nat.add_assoc] at h
    exact .space hc (ih hblanks h)

/-- A semicolon is a token, whatever follows. -/
theorem scans_semicolon {start : Nat} {cs : List Char} {ts : List Token}
    (h : Scans (start + 1) cs ts) :
    Scans start (';' :: cs) ({ kind := .semicolon, text := [';'], start } :: ts) := by
  have hlongest : longest? (';' :: cs) = some (.semicolon, 1) := rfl
  exact .token rfl (by decide) (munches_of_longest?_eq_some hlongest).1 h

end Token
end Tabletop
