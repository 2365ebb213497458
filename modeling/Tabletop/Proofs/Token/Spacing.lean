import Tabletop.Proofs.Token.Separation
import Tabletop.Proofs.Token.Tokenisation

/-!
# Texts that are made of tokens

Tokens can be written down one after the other, each with a blank behind it, and scanning what is written
gives the same tokens again, though at other places (`map_bare_scan_spaced`).  This needs of each token that
its text is the longest token in front of itself, `Token.Alone`.  Proper tokens of any text are such, wherever
they have been found, and so are the texts that `TokenKind.sample` has for the kinds.
-/

namespace Tabletop

open Text

/-- A kind of token together with a text. -/
abbrev BareToken := TokenKind × List Char

/-- What a token is, apart from where it stands. -/
def Token.bare (t : Token) : BareToken :=
  (t.kind, t.text)

namespace Token

/-- A proper token that is the longest in front of its own text. -/
structure Alone (t : Token) : Prop where
  isProper : t.kind.IsProper
  munches : t.Munches t.text
  exists_cons : ∃ c us, t.text = c :: us ∧ ¬isSpace c

/-- What is the longest in front of a text is the longest in front of every part of it that reaches as far. -/
theorem Munches.of_prefix {t : Token} {cs ds : List Char} (h : t.Munches ds) (htext : t.text <+: cs)
    (hcs : cs <+: ds) : t.Munches cs := by
  refine ⟨htext, h.2.imp ?_ ?_⟩
  · rintro ⟨hmem, hlongest⟩
    exact ⟨hmem, fun kind us hus => hlongest kind us (hus.trans hcs)⟩
  · rintro ⟨hkind, hlength, hnone⟩
    exact ⟨hkind, hlength, fun kind us hus => hnone kind us (hus.trans hcs)⟩

/-- So it is the longest in front of itself. -/
theorem Munches.alone {t : Token} {rest : List Char} (h : t.Munches (t.text ++ rest)) :
    t.Munches t.text :=
  h.of_prefix List.prefix_rfl (List.prefix_append _ _)

theorem alone_of_mem_scan {start : Nat} {cs : List Char} {t : Token} (ht : t ∈ scan start cs)
    (hproper : t.kind.IsProper) : t.Alone := by
  obtain ⟨_, _, _, _, hmunches, hcons⟩ := (scans_scan start cs).placed ht
  exact ⟨hproper, hmunches.alone, hcons⟩

/-! ## Texts -/

/-- The texts of tokens, each with a blank behind it. -/
def spaced (ts : List Token) : List Char :=
  ts.flatMap fun t => t.text ++ [' ']

/-- The induction is on the tokens.  Behind each of them a blank separates it from the next one. -/
theorem exists_scans_spaced {ts : List Token} (h : ∀ t ∈ ts, t.Alone) (start : Nat) :
    ∃ us, Scans start (spaced ts) us ∧ us.map bare = ts.map bare := by
  induction ts generalizing start with
  | nil => exact ⟨[], .nil, rfl⟩
  | cons t ts ih =>
    obtain ⟨ht, hts⟩ := List.forall_mem_cons.1 h
    obtain ⟨c, us, htext, hc⟩ := ht.exists_cons
    obtain ⟨rest, hrest, hbare⟩ := ih hts (start + width t.text + ' '.utf8Size)
    have hmunches : t.Munches (t.text ++ ' ' :: spaced ts) := by
      have halone := ht.munches
      rw [← List.append_nil t.text] at halone
      exact halone.separated ht.isProper (.inl (by decide)) (spaced ts)
    have hblank : Scans (stop { t with start }) (' ' :: spaced ts) rest := .space (by decide) hrest
    have hscans := Scans.token (t := { t with start }) htext hc hmunches hblank
    refine ⟨{ t with start } :: rest, ?_, congrArg (t.bare :: ·) hbare⟩
    rw [spaced, List.flatMap_cons, List.append_assoc]
    exact hscans

/-- What is written is read back. -/
theorem map_bare_scan_spaced {ts : List Token} (h : ∀ t ∈ ts, t.Alone) (start : Nat) :
    (scan start (spaced ts)).map bare = ts.map bare := by
  obtain ⟨us, hscans, hbare⟩ := exists_scans_spaced h start
  rw [hscans.scan_eq, hbare]

end Token

/-! ## Samples -/

/-- The shortest text of a kind, or one of them. -/
def TokenKind.sample (kind : TokenKind) : List Char :=
  match kind with
  | integer => ['0']
  | dice => ['d', '1']
  | identifier => ['x']
  | string => ['"', '"']
  | template => [templateMark, templateMark]
  | _ => (kind.spelling?.map String.toList).getD []

/-- A token of a kind. -/
def Token.sample (kind : TokenKind) : Token :=
  { kind, text := kind.sample, start := 0 }

theorem TokenKind.longest?_sample {kind : TokenKind} (h : kind.IsProper) :
    longest? kind.sample = some (kind, kind.sample.length) := by
  cases kind with
  | unknown => exact absurd rfl h.1
  | unclosedString => exact absurd rfl h.2.1
  | unclosedTemplate => exact absurd rfl h.2.2
  | _ => decide

theorem TokenKind.exists_cons_sample {kind : TokenKind} (h : kind.IsProper) :
    ∃ c us, kind.sample = c :: us ∧ ¬isSpace c := by
  cases kind with
  | unknown => exact absurd rfl h.1
  | unclosedString => exact absurd rfl h.2.1
  | unclosedTemplate => exact absurd rfl h.2.2
  | _ => exact ⟨_, _, rfl, by decide⟩

theorem Token.alone_sample {kind : TokenKind} (h : kind.IsProper) : (sample kind).Alone where
  isProper := h
  munches := by
    have hmunches := (@munches_of_longest?_eq_some _ _ _ 0 (TokenKind.longest?_sample h)).1
    rwa [List.take_length] at hmunches
  exists_cons := TokenKind.exists_cons_sample h

end Tabletop
