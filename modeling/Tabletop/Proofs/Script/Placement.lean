import Tabletop.Proofs.Script.Splitting
import Tabletop.Proofs.Token.Scan
import Tabletop.Script.Reading

/-!
# Where the parts of a script stand

Reading goes into templates and the scripts inside them, and each time works on a shorter text that
begins at a later byte.  `StandsAt` says that such a text is part of the whole and at which byte; it is
passed on from a script to its tokens, to the body of a template, to the pieces of the body, and so to
the scripts inside.
-/

namespace Tabletop

open Text

/-- In a text whose first character is at the byte `start`, the text `inside` begins at the byte `here`.
-/
def StandsAt (start : Nat) (cs : List Char) (here : Nat) (inside : List Char) : Prop :=
  ∃ before after, cs = before ++ (inside ++ after) ∧ here = start + width before

namespace StandsAt

theorem trans {start here place : Nat} {cs ds es : List Char} (h : StandsAt start cs here ds)
    (h' : StandsAt here ds place es) : StandsAt start cs place es := by
  obtain ⟨before, after, rfl, rfl⟩ := h
  obtain ⟨before', after', rfl, rfl⟩ := h'
  refine ⟨before ++ before', after' ++ after, by simp, ?_⟩
  rw [width_append, Nat.add_assoc]

theorem suffix {start : Nat} (us vs : List Char) : StandsAt start (us ++ vs) (start + width us) vs :=
  ⟨us, [], by simp, rfl⟩

theorem notMem {start here : Nat} {cs ds : List Char} {c : Char} (h : StandsAt start cs here ds)
    (hc : c ∉ cs) : c ∉ ds := by
  obtain ⟨before, after, rfl, -⟩ := h
  exact fun hmem => hc (List.mem_append_right _ (List.mem_append_left _ hmem))

theorem infix_cons {start : Nat} (c : Char) (us vs : List Char) :
    StandsAt start (c :: us ++ vs) (start + c.utf8Size) us :=
  ⟨[c], vs, rfl, rfl⟩

end StandsAt

/-! ## Tokens -/

namespace Token

theorem standsAt_of_mem_scan {start : Nat} {cs : List Char} {t : Token} (ht : t ∈ scan start cs) :
    StandsAt start cs t.start t.text := by
  obtain ⟨before, after, hsplit, hstart, _⟩ := (scans_scan start cs).placed ht
  exact ⟨before, after, hsplit, hstart⟩

/-- The body of a template stands behind its first backtick. -/
theorem standsAt_body {start : Nat} {cs : List Char} {t : Token} (ht : t ∈ scan start cs)
    (hkind : t.kind = .template) : StandsAt start cs (t.start + 1) t.body := by
  obtain ⟨body, _, htext⟩ := mem_enclosed_iff.1 (mem_pattern_of_mem_scan ht hkind (by decide))
  refine (standsAt_of_mem_scan ht).trans ?_
  rw [htext, body_of_text_eq htext]
  exact .infix_cons templateMark body [templateMark]

end Token

/-! ## Faults and pieces -/

namespace SyntaxError

/-- A fault quotes the text that stands between its two bytes. -/
def Quotes (e : SyntaxError) (start : Nat) (cs : List Char) : Prop :=
  ∃ inside, StandsAt start cs e.start inside ∧ e.stop = e.start + width inside ∧
    e.slice = String.ofList inside

theorem Quotes.trans {e : SyntaxError} {start here : Nat} {cs ds : List Char}
    (hds : StandsAt start cs here ds) (h : e.Quotes here ds) : e.Quotes start cs := by
  obtain ⟨inside, hinside, hwhole⟩ := h
  exact ⟨inside, hds.trans hinside, hwhole⟩

theorem quotes_atToken {start : Nat} {cs : List Char} {t : Token} (ht : t ∈ Token.scan start cs)
    (cause : Cause) : (atToken t cause).Quotes start cs :=
  ⟨t.text, Token.standsAt_of_mem_scan ht, rfl, rfl⟩

theorem quotes_atEnd (start : Nat) (cs : List Char) (expected : List TokenKind) :
    (atEnd (start + width cs) expected).Quotes start cs :=
  ⟨[], ⟨cs, [], by simp, rfl⟩, rfl, rfl⟩

/-- The fault is that a text ends where it has to go on. -/
def IsEnd (e : SyntaxError) : Prop :=
  ∃ expected, e.cause = .unexpectedToken none expected

end SyntaxError

namespace Piece

/-- What a piece says about its place is right: a script stands between braces, and a fault quotes a
text. -/
def Placed (start : Nat) (body : List Char) : Piece → Prop
  | text _ => True
  | code here inner =>
    ∃ brace, here = brace + openingBrace.utf8Size ∧
      StandsAt start body brace (openingBrace :: inner ++ [closingBrace])
  | fault why => why.Quotes start body ∧ ¬why.IsEnd

theorem Placed.trans {start here : Nat} {cs body : List Char} {piece : Piece}
    (hbody : StandsAt start cs here body) (h : piece.Placed here body) : piece.Placed start cs := by
  cases piece with
  | text => trivial
  | code place inner =>
    obtain ⟨brace, hplace, hbrace⟩ := h
    exact ⟨brace, hplace, hbody.trans hbrace⟩
  | fault why => exact ⟨h.1.trans hbody, h.2⟩

theorem Placed.standsAt {start here : Nat} {body inner : List Char}
    (h : (code here inner).Placed start body) : StandsAt start body here inner := by
  obtain ⟨brace, rfl, hbrace⟩ := h
  exact hbrace.trans (.infix_cons openingBrace inner [closingBrace])

theorem placed_of_mem_ofText {start : Nat} {body cs : List Char} {piece : Piece}
    (h : piece ∈ ofText cs) : piece.Placed start body := by
  unfold ofText at h
  split at h
  · cases h
  · rw [List.mem_singleton.1 h]
    trivial

theorem placed_ofInner (start : Nat) (inner rest : List Char) :
    (ofInner start inner).Placed start (openingBrace :: (inner ++ closingBrace :: rest)) := by
  have hcode : StandsAt start (openingBrace :: (inner ++ closingBrace :: rest)) start
      (openingBrace :: inner ++ [closingBrace]) := ⟨[], rest, by simp, rfl⟩
  unfold ofInner
  split
  · exact ⟨⟨_, hcode, rfl, rfl⟩, nofun⟩
  · exact ⟨start, rfl, hcode⟩

theorem placed_of_mem_ofBody {start : Nat} {body : List Char} {piece : Piece}
    (h : piece ∈ ofBody start body) : piece.Placed start body := by
  induction body using bodyInduction generalizing start with
  | text cs hcs =>
    rw [ofBody_of_noBrace hcs] at h
    exact placed_of_mem_ofText h
  | unclosed cs rest hcs hcut =>
    rw [ofBody_append_brace rest hcs, hcut] at h
    rcases List.mem_append.1 h with h | h
    · exact placed_of_mem_ofText h
    · rw [List.mem_singleton.1 h]
      exact ⟨⟨_, .suffix cs _, rfl, rfl⟩, nofun⟩
  | code cs inner rest hcs hcut ih =>
    rw [ofBody_append_brace _ hcs, hcut] at h
    rcases List.mem_append.1 h with h | h
    · exact placed_of_mem_ofText h
    · rcases List.mem_cons.1 h with rfl | h
      · exact (placed_ofInner _ inner rest).trans (.suffix cs _)
      · have hsplit : openingBrace :: (inner ++ closingBrace :: rest) =
            (openingBrace :: inner ++ [closingBrace]) ++ rest := by simp
        rw [hsplit]
        exact ((ih h).trans (.suffix _ rest)).trans (.suffix cs _)

end Piece
end Tabletop
