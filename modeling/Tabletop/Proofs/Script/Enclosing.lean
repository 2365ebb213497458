import Tabletop.Proofs.Script.Acceptance
import Tabletop.Proofs.Token.Separation

/-!
# Scripts between braces

Where a script ends inside a template is found by looking for a closing brace outside string literals,
and before the script is cut into tokens.  For this the text is read by rules of its own, which know
nothing but quotes and backslashes.  On a script without templates they find what the tokens are: a
string begins and ends in code, every other token is in code throughout, and no token but a string has a
closing brace (`Script.code_ends_of_read`).
-/

namespace Tabletop

open Text
open scoped Computability

/-! ## Texts that leave the place as it is -/

namespace Place

theorem Ends.append {place : Place} {us vs : List Char} (hus : place.Ends us)
    (hvs : Place.code.Ends vs) : place.Ends (us ++ vs) := by
  induction us generalizing place with
  | nil =>
    obtain rfl := ends_nil.1 hus
    exact hvs
  | cons c us ih =>
    obtain ⟨hc, htail⟩ := ends_cons.1 hus
    exact ends_cons.2 ⟨hc, ih htail⟩

/-- A character that neither begins a string nor ends a script. -/
def IsPlain (c : Char) : Prop :=
  c ≠ '"' ∧ c ≠ closingBrace

instance : DecidablePred IsPlain :=
  fun c => inferInstanceAs (Decidable (c ≠ '"' ∧ c ≠ closingBrace))

theorem code_ends_of_plain {us : List Char} (h : ∀ c ∈ us, IsPlain c) : Place.code.Ends us := by
  induction us with
  | nil => exact ends_nil.2 rfl
  | cons c us ih =>
    obtain ⟨hc, hus⟩ := List.forall_mem_cons.1 h
    refine ends_cons.2 ⟨fun hclose => hc.2 hclose.2, ?_⟩
    rw [after, if_neg hc.1]
    exact ih hus

/-- What stands inside a string, and the quote behind it. -/
theorem literal_ends {body : List Char} (h : body ∈ TokenKind.stringPart∗) :
    Place.literal.Ends (body ++ ['"']) := by
  obtain ⟨parts, rfl, hparts⟩ := h
  induction parts with
  | nil => exact ends_cons.2 ⟨nofun, ends_nil.2 rfl⟩
  | cons part parts ih =>
    obtain ⟨hpart, hparts⟩ := List.forall_mem_cons.1 hparts
    have hrest := ih hparts
    rw [List.flatten_cons, List.append_assoc]
    rcases TokenKind.mem_stringPart.1 hpart with ⟨c, ⟨hquote, hbackslash⟩, rfl⟩ | ⟨c, _, rfl⟩
    · refine ends_cons.2 ⟨nofun, ?_⟩
      rw [after, if_neg hbackslash, if_neg hquote]
      exact hrest
    · exact ends_cons.2 ⟨nofun, ends_cons.2 ⟨nofun, hrest⟩⟩

end Place

/-! ## Tokens -/

namespace TokenKind

/-- The texts in which no string begins and no script ends. -/
def plain : Language Char :=
  (oneChar Place.IsPlain)∗

theorem word_le_plain : word ≤ plain := by
  refine kstar_mono ?_
  rintro us ⟨c, hc, rfl⟩
  refine ⟨c, ⟨?_, ?_⟩, rfl⟩
  · rintro rfl
    exact absurd hc (by decide)
  · rintro rfl
    exact absurd hc (by decide)

theorem spelled_le_plain (kind : TokenKind) : kind.spelled ≤ plain := by
  rintro us ⟨spelling, hspelling, rfl⟩
  have hall : spelling.toList.all fun c => Place.IsPlain c := by
    cases kind <;> cases hspelling <;> decide
  exact mem_kstar_oneChar.2 fun c hc => of_decide_eq_true (List.all_eq_true.1 hall c hc)

/-- The text of a token leaves code as code. -/
theorem code_ends_of_mem_pattern {kind : TokenKind} {us : List Char} (hkind : kind.IsProper)
    (hmark : templateMark ∉ us) (h : us ∈ kind.pattern) : Place.code.Ends us := by
  have hplain : kind.pattern ≤ plain → Place.code.Ends us := fun hle =>
    Place.code_ends_of_plain (mem_kstar_oneChar.1 (hle h))
  cases kind with
  | integer => exact hplain (numeral_le_word.trans word_le_plain)
  | dice => exact hplain (diceTerm_le_word.trans word_le_plain)
  | identifier => exact hplain (identifier_le_word.trans word_le_plain)
  | string =>
    obtain ⟨body, hbody, rfl⟩ := mem_enclosed_iff.1 h
    exact Place.ends_cons.2 ⟨by decide, Place.literal_ends hbody⟩
  | template =>
    obtain ⟨body, _, rfl⟩ := mem_enclosed_iff.1 h
    exact absurd (by simp) hmark
  | unclosedString => exact absurd rfl hkind.2.1
  | unclosedTemplate => exact absurd rfl hkind.2.2
  | unknown => exact absurd rfl hkind.1
  | _ => exact hplain (spelled_le_plain _)

end TokenKind

/-! ## Scripts -/

theorem Phrase.isProper_of_mem_operators {phrase : Phrase} {kind : TokenKind}
    (h : kind ∈ phrase.operators) : kind.IsProper := by
  have hall : ∀ kind ∈ phrase.operators, kind.IsProper := by
    cases phrase <;> decide
  exact hall kind h

theorem Derives.ne_nil {phrase : Phrase} {ks : List TokenKind} (h : Derives phrase ks) : ks ≠ [] := by
  induction h with
  | program _ ih | item _ ih | expr _ ih | ternary _ ih | part _ _ ih | unary _ ih => exact ih
  | _ => simp

/-- The grammar derives no kind that stands for text that is no token. -/
theorem Derives.isProper {phrase : Phrase} {ks : List TokenKind} (h : Derives phrase ks) :
    ∀ kind ∈ ks, kind.IsProper := by
  induction h with
  | program _ ih | item _ ih | expr _ ih | ternary _ ih | part _ _ ih | unary _ ih => exact ih
  | trailing _ ih => exact List.forall_mem_append.2 ⟨ih, by decide⟩
  | sequence _ _ ihl ihr =>
    exact List.forall_mem_append.2 ⟨ihl, List.forall_mem_cons.2 ⟨by decide, ihr⟩⟩
  | assignment _ ih =>
    exact List.forall_mem_cons.2 ⟨by decide, List.forall_mem_cons.2 ⟨by decide, ih⟩⟩
  | conditional _ _ _ ihc iht ihe =>
    refine List.forall_mem_append.2 ⟨?_, List.forall_mem_cons.2 ⟨by decide, ihe⟩⟩
    exact List.forall_mem_append.2 ⟨ihc, List.forall_mem_cons.2 ⟨by decide, iht⟩⟩
  | chain hkind _ _ ihl ihr =>
    have hkind := Phrase.isProper_of_mem_operators hkind
    exact List.forall_mem_append.2 ⟨ihl, List.forall_mem_cons.2 ⟨hkind, ihr⟩⟩
  | sign hkind _ ih =>
    have hsigns : ∀ kind ∈ [TokenKind.minus, .plus, .bang], kind.IsProper := by decide
    exact List.forall_mem_cons.2 ⟨hsigns _ hkind, ih⟩
  | literal hkind =>
    have hliterals : ∀ kind ∈ [TokenKind.integer, .dice, .identifier, .string, .template],
        kind.IsProper := by decide
    exact List.forall_mem_singleton.2 (hliterals _ hkind)
  | paren _ ih =>
    refine List.forall_mem_append.2 ⟨List.forall_mem_cons.2 ⟨by decide, ih⟩, by decide⟩

/-- The tokens of a script are proper. -/
theorem Script.isProper_of_read {start : Nat} {source : List Char} {script : Script}
    (h : Script.read start source = .ok script) : ∀ t ∈ Token.scan start source, t.kind.IsProper :=
  fun t ht => (Script.read_eq_ok_iff.1 h).derives.isProper t.kind (List.mem_map_of_mem ht)

theorem isPlain_of_isSpace {c : Char} (h : isSpace c) : Place.IsPlain c := by
  simp only [isSpace, Bool.or_eq_true, decide_eq_true_eq] at h
  rcases h with ((rfl | rfl) | rfl) | rfl <;> decide

/-- Between proper tokens there is only white space, and so the text is in code all along. -/
theorem Token.Scans.code_ends {start : Nat} {cs : List Char} {ts : List Token}
    (h : Scans start cs ts) (hproper : ∀ t ∈ ts, t.kind.IsProper) (hmark : templateMark ∉ cs) :
    Place.code.Ends cs := by
  induction h with
  | nil => exact Place.ends_nil.2 rfl
  | space hc _ ih =>
    have hplain := Place.code_ends_of_plain (List.forall_mem_singleton.2 (isPlain_of_isSpace hc))
    exact hplain.append (ih hproper fun hmem => hmark (List.mem_cons_of_mem _ hmem))
  | token _ _ hmunches _ ih =>
    obtain ⟨ht, hts⟩ := List.forall_mem_cons.1 hproper
    rw [List.mem_append, not_or] at hmark
    have htext := hmunches.mem_pattern ht.1
    exact (TokenKind.code_ends_of_mem_pattern ht hmark.1 htext).append (ih hts hmark.2)

/-- A blank character begins no token.  There are few of them, so each is looked at. -/
theorem TokenKind.lead?_of_isBlank {c : Char} (h : isBlank c) : lead? c = none := by
  have hblanks : ∀ range ∈ blanks, ∀ n ∈ List.range' range.1 (range.2 + 1 - range.1),
      lead? (Char.ofNat n) = none := by decide
  obtain ⟨range, hrange, hc⟩ := List.any_eq_true.1 h
  obtain ⟨hfirst, hlast⟩ := Bool.and_eq_true_iff.1 hc
  have hmem : c.toNat ∈ List.range' range.1 (range.2 + 1 - range.1) := by
    rw [List.mem_range'_1]
    have hfirst := of_decide_eq_true hfirst
    have hlast := of_decide_eq_true hlast
    omega
  rw [← Char.ofNat_toNat c]
  exact hblanks range hrange _ hmem

/-- A script without templates ends where it is closed, and it is not blank. -/
theorem Script.code_ends_of_read {start : Nat} {inner : List Char} {script : Script}
    (h : Script.read start inner = .ok script) (hmark : templateMark ∉ inner) :
    Place.code.Ends inner ∧ ∃ c ∈ inner, ¬isBlank c := by
  have hscans := Token.scans_scan start inner
  have hderives := (Script.read_eq_ok_iff.1 h).derives
  have hkinds := Script.isProper_of_read h
  refine ⟨hscans.code_ends hkinds hmark, ?_⟩
  obtain ⟨t, ht⟩ := List.exists_mem_of_ne_nil _ fun hnil =>
    hderives.ne_nil (congrArg (List.map Token.kind) hnil)
  obtain ⟨before, after, rfl, _, hmunches, _⟩ := hscans.placed ht
  obtain ⟨c, us, lead, htext, hlead, _⟩ :=
    TokenKind.exists_lead_of_mem_pattern (hmunches.mem_pattern (hkinds t ht).1)
  refine ⟨c, by simp [htext], fun hblank => ?_⟩
  rw [TokenKind.lead?_of_isBlank hblank] at hlead
  cases hlead

end Tabletop
