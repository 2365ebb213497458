import Tabletop.Proofs.Token.Pattern
import Tabletop.Text.Literal

/-!
# Writing literals

Every text can stand between the quotes of a literal, once a backslash is put in front of each of its quotes and
backslashes: it is the text of a string token (`literal_mem_pattern`), and decoding gives it back
(`unescape_escape`).

`Unescapes` decodes from left to right and has no rule for a backslash with nothing behind it.  It decodes the
inside of every string token, so in those such a backslash is never met (`unescapes_of_mem_kstar`).
-/

namespace Tabletop.Text

open scoped Computability

/-- A character as it stands in a literal: behind a backslash if it is a quote or a backslash, else by itself. -/
def escapeChar (c : Char) : List Char :=
  if c = '"' ∨ c = '\\' then ['\\', c] else [c]

/-- A text as it stands in a literal. -/
def escape (cs : List Char) : List Char :=
  cs.flatMap escapeChar

/-- The literal of a text. -/
def literal (cs : List Char) : List Char :=
  '"' :: escape cs ++ ['"']

/-- Decoding from left to right, where each backslash stands before another character. -/
inductive Unescapes : List Char → List Char → Prop
  | nil : Unescapes [] []
  | plain {c : Char} {cs ds : List Char} (hc : c ≠ '\\') (h : Unescapes cs ds) :
    Unescapes (c :: cs) (c :: ds)
  | escaped {c : Char} {cs ds : List Char} (h : Unescapes cs ds) :
    Unescapes ('\\' :: c :: cs) (escapedChar c :: ds)

theorem unescape_cons {c : Char} (hc : c ≠ '\\') (cs : List Char) :
    unescape (c :: cs) = c :: unescape cs := by
  rw [unescape]
  intro d ds hslash _
  exact hc hslash

/-- Where no backslash is left alone, decoding is what the relation says. -/
theorem Unescapes.unescape_eq {cs ds : List Char} (h : Unescapes cs ds) : unescape cs = ds := by
  induction h with
  | nil => rfl
  | plain hc _ ih => rw [unescape_cons hc, ih]
  | escaped _ ih => rw [unescape, ih]

/-! ## Written literals -/

theorem unescapes_escape (cs : List Char) : Unescapes (escape cs) cs := by
  induction cs with
  | nil => exact .nil
  | cons c cs ih =>
    rw [escape, List.flatMap_cons, escapeChar]
    split
    · rename_i hc
      have hsame : escapedChar c = c := by rcases hc with rfl | rfl <;> rfl
      have hescaped : Unescapes ('\\' :: c :: escape cs) (escapedChar c :: cs) := .escaped ih
      rw [hsame] at hescaped
      exact hescaped
    · rename_i hc
      exact .plain (fun heq => hc (.inr heq)) ih

theorem unescape_escape (cs : List Char) : unescape (escape cs) = cs :=
  (unescapes_escape cs).unescape_eq

theorem escapeChar_mem_stringPart (c : Char) : escapeChar c ∈ TokenKind.stringPart := by
  rw [escapeChar, TokenKind.mem_stringPart]
  split
  · rename_i hc
    refine .inr ⟨c, ?_, rfl⟩
    rcases hc with rfl | rfl <;> decide
  · rename_i hc
    exact .inl ⟨c, not_or.1 hc, rfl⟩

/-- The literal of a text is a string, whatever the text. -/
theorem literal_mem_pattern (cs : List Char) : literal cs ∈ TokenKind.string.pattern := by
  refine mem_enclosed_iff.2 ⟨escape cs, ⟨cs.map escapeChar, rfl, ?_⟩, rfl⟩
  intro part hpart
  obtain ⟨c, -, rfl⟩ := List.mem_map.1 hpart
  exact escapeChar_mem_stringPart c

/-- Writing a literal puts quotes and backslashes in, and nothing else. -/
theorem mem_of_mem_literal {c : Char} {cs : List Char} (h : c ∈ literal cs) (hquote : c ≠ '"')
    (hslash : c ≠ '\\') : c ∈ cs := by
  have hescape : c ∈ escape cs := by simpa [literal, hquote] using h
  obtain ⟨d, hd, hc⟩ := List.mem_flatMap.1 hescape
  rw [escapeChar] at hc
  split at hc
  · have heq : c = d := by simpa [hslash] using hc
    exact heq ▸ hd
  · exact List.mem_singleton.1 hc ▸ hd

/-! ## Literals of any string token -/

theorem unescapes_of_mem_kstar {cs : List Char} (h : cs ∈ TokenKind.stringPart∗) :
    Unescapes cs (unescape cs) := by
  obtain ⟨parts, rfl, hparts⟩ := h
  induction parts with
  | nil => exact .nil
  | cons part parts ih =>
    obtain ⟨hpart, hrest⟩ := List.forall_mem_cons.1 hparts
    rw [List.flatten_cons]
    rcases TokenKind.mem_stringPart.1 hpart with ⟨c, hc, rfl⟩ | ⟨c, -, rfl⟩
    · rw [List.singleton_append, unescape_cons hc.2]
      exact .plain hc.2 (ih hrest)
    · exact .escaped (ih hrest)

end Tabletop.Text
