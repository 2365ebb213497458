import Tabletop.Proofs.Script.Substitution
import Tabletop.Proofs.Text.Literal

/-!
# Literals in scripts

The literal of a text is one token, and the script that consists of it is the text (`Script.read_literal`).  In
any other script it can stand where a string stands, and whatever the text contains, nothing else in the tree is
changed (`Script.literals_hold_any_text`).

A template is one token with all that is inside it, and it ends at the first backtick, also where that stands in
a literal.  So in the scripts inside a template only the literals of texts without backticks can stand
(`Script.literal_of_backtick_ends_template`).
-/

namespace Tabletop

open Text

/-- The literal of a text as a token. -/
def Token.literal (start : Nat) (v : String) : Token :=
  { kind := .string, text := Text.literal v.toList, start }

namespace Token

theorem scan_literal (start : Nat) (v : String) :
    scan start (Text.literal v.toList) = [literal start v] :=
  @scan_eq_singleton (literal start v) (literal_mem_pattern v.toList) nofun

theorem body_literal (start : Nat) (v : String) : (literal start v).body = escape v.toList :=
  body_of_text_eq rfl

theorem reads_literal (start : Nat) (v : String) : Expr.Reads .atom [literal start v] (.string v) := by
  have hreads := @Expr.Reads.string (literal start v) rfl
  rw [body_literal, unescape_escape, String.ofList_toList] at hreads
  exact hreads

/-- No string token has a backslash in it with nothing behind. -/
theorem unescapes_body {start : Nat} {source : List Char} {t : Token} (ht : t ∈ scan start source)
    (hkind : t.kind = .string) : Unescapes t.body (unescape t.body) := by
  obtain ⟨body, hbody, htext⟩ := mem_enclosed_iff.1 (mem_pattern_of_mem_scan ht hkind (by decide))
  rw [body_of_text_eq htext]
  exact unescapes_of_mem_kstar hbody

end Token

namespace Script

theorem read_literal (start : Nat) (v : String) :
    read start (Text.literal v.toList) = .ok (.single (.string v)) := by
  have hunary : Expr.Reads (.ofTier 6) [Token.literal start v] (.string v) :=
    .unary (Token.reads_literal start v)
  have hexpr : Expr.Reads .expr [Token.literal start v] (.string v) := hunary.loosen (Nat.zero_le 6)
  rw [read_eq_ok_iff, Token.scan_literal]
  exact .program (.item hexpr)

/-- Where a string stands in a script, the literal of any text can stand; inside a template, that of any text
without a backtick. -/
theorem exists_around_literal {start here : Nat} {source text : List Char} {script : Script}
    (hwithin : Within start source here text) (h : read start source = .ok script) {t : Token}
    (ht : t ∈ Token.scan here text) (hkind : t.kind = .string) {before after : List Char}
    (hsource : source = before ++ (t.text ++ after)) (hstart : t.start = start + width before) :
    ∃ around : Script.Around, script = around.fill (.string (String.ofList (unescape t.body))) ∧
      ∀ v : String, t ∈ Token.scan start source ∨ templateMark ∉ v.toList →
        read start (before ++ (literal v.toList ++ after)) = .ok (around.fill (.string v)) := by
  have hpattern : t.text ∈ t.kind.pattern := by
    rw [hkind]
    exact Token.mem_pattern_of_mem_scan ht hkind (by decide)
  -- in its own place the string is read as it was
  have hsame : ∀ {e}, read start (before ++ (t.text ++ after)) = .ok e → script = e := fun he => by
    rw [← hsource, h] at he
    exact Except.ok.inj he
  by_cases hself : t ∈ Token.scan start source
  · obtain ⟨around, hreplace⟩ := exists_around h hself (.inl hkind) hsource hstart
    exact ⟨around, hsame (hreplace t _ (.inl hkind) hpattern (.string hkind)), fun v _ =>
      hreplace (Token.literal 0 v) _ (.inl rfl) (literal_mem_pattern _) (Token.reads_literal 0 v)⟩
  · obtain ⟨before', after', around, hsource', hstart', hreplace⟩ :=
      exists_around_of_within hwithin h ht (.inl hkind)
    obtain ⟨rfl, hbehind⟩ := append_inj_of_width_eq (hsource.symm.trans hsource') (by omega)
    obtain rfl := List.append_cancel_left hbehind
    have hmark : templateMark ∉ t.text := by
      rcases hwithin.eq_or_templateMark_notMem with ⟨rfl, rfl⟩ | hmark
      · exact absurd ht hself
      · exact (Token.standsAt_of_mem_scan ht).notMem hmark
    refine ⟨around, hsame (hreplace t _ hmark (.inl hkind) hpattern (.string hkind)), fun v hv => ?_⟩
    have hliteral : templateMark ∉ (Token.literal 0 v).text := fun hmem =>
      (hv.resolve_left hself) (mem_of_mem_literal hmem (by decide) (by decide))
    exact hreplace _ _ hliteral (.inl rfl) (literal_mem_pattern _) (Token.reads_literal 0 v)

/-- Every text has a literal.  The literal is one token that takes in all of it, and is read as the text.

In a source text that is a script, let it be put in the place of any string, also of one in a script inside a
template; there the text must have no backtick, since a template ends at the first one.  There is a part of the
tree that is the value of that string, and this part becomes the new text, while all that stands around it stays
the same for whatever text it is.

And the inside of every string is decoded from left to right without coming to a backslash that is left alone. -/
theorem literals_hold_any_text :
    (∀ (start : Nat) (v : String),
      Token.scan start (literal v.toList) = [{ kind := .string, text := literal v.toList, start }] ∧
      read start (literal v.toList) = .ok (.single (.string v))) ∧
    (∀ (source : String) (script : Script), ofSource source = .ok script →
      ∀ (here : Nat) (text : List Char), Within 0 source.toList here text →
      ∀ t ∈ Token.scan here text, t.kind = .string →
      ∀ before after : List Char, source.toList = before ++ (t.text ++ after) → t.start = width before →
        ∃ around : Script.Around,
          script = around.fill (.string (String.ofList (unescape t.body))) ∧
          ∀ v : String, t ∈ Token.scan 0 source.toList ∨ templateMark ∉ v.toList →
            ofSource (String.ofList (before ++ (literal v.toList ++ after))) =
              .ok (around.fill (.string v))) ∧
    ∀ (start : Nat) (source : List Char), ∀ t ∈ Token.scan start source, t.kind = .string →
      Unescapes t.body (unescape t.body) := by
  refine ⟨fun start v => ⟨Token.scan_literal start v, read_literal start v⟩, ?_, ?_⟩
  · intro source script h here text hwithin t ht hkind before after hsource hstart
    obtain ⟨around, hsame, hreplace⟩ :=
      exists_around_literal hwithin h ht hkind hsource (by rw [hstart, Nat.zero_add])
    exact ⟨around, hsame, fun v hv => (read_eq_ok_iff_ofSource 0).1 (hreplace v hv)⟩
  · exact fun start source t ht hkind => Token.unescapes_body ht hkind

/-- Inside a template the literal of a backtick does not stay a string: the template ends at the backtick, and the
brace before it is not closed. -/
theorem literal_of_backtick_ends_template :
    let before := [templateMark, openingBrace]
    let after := [closingBrace, templateMark]
    let t : Token := { kind := .string, text := ['"', 'x', '"'], start := 2 }
    (∃ script, Script.ofSource (String.ofList (before ++ (t.text ++ after))) = .ok script) ∧
    (∃ here text, Script.Within 0 (before ++ (t.text ++ after)) here text ∧ t ∈ Token.scan here text) ∧
    Script.ofSource (String.ofList (before ++ (literal "\x60".toList ++ after))) =
      .error { cause := .unclosedInterpolation, start := 1, stop := 3, slice := "\x7b\"" } := by
  intro before after t
  let body := openingBrace :: t.text ++ [closingBrace]
  have hread : read 2 t.text = .ok (.single (.string "x")) := read_literal 2 "x"
  have htemplate : Token.backticked 0 body ∈ Token.scan 0 (before ++ (t.text ++ after)) :=
    List.mem_of_mem_head? (by decide +kernel)
  have hcode : .code 2 t.text ∈ Piece.ofBody 1 (Token.backticked 0 body).body := by
    rw [Token.body_backticked, Piece.ofBody_braced hread (by decide)]
    exact List.mem_singleton_self _
  refine ⟨⟨.single (.template [.code (.single (.string "x"))]), ?_⟩,
    ⟨2, t.text, .template htemplate rfl hcode .self, ?_⟩, ?_⟩
  · have hwhole : read 0 (backticked body) = .ok (.single (.template [.code (.single (.string "x"))])) := by
      rw [read_backticked 0 (by decide), Segment.readBody_braced hread (by decide)]
      rfl
    exact (read_eq_ok_iff_ofSource 0).1 hwhole
  · decide +kernel
  · have hfault : (ofSource (String.ofList (before ++ (literal "\x60".toList ++ after)))).map (fun _ => ()) =
        .error { cause := .unclosedInterpolation, start := 1, stop := 3, slice := "\x7b\"" } := by
      decide +kernel
    exact map_eq_error_iff.1 hfault

/-- A text with a quote, a backtick, a line break and a backslash at its end, in the place of a string that ends
with a backslash of its own, and a text with a quote and braces in the place of a string inside a template. -/
theorem literals_hold_any_text_hostile :
    let before := ['x', '=']
    let between := ['+', templateMark, openingBrace]
    let after := [closingBrace, templateMark]
    let b := ['"', 'b', '\\', '\\', '"']
    let c := ['"', 'c', '"']
    let source := String.ofList (before ++ (b ++ (between ++ (c ++ after))))
    let v := "\"+\x60;\n\\"
    let w := "\"\x7d\x7b\\"
    (∃ around : Script.Around,
      Script.ofSource source = .ok (around.fill (.string "b\\")) ∧
      Script.ofSource (String.ofList (before ++ (literal v.toList ++ (between ++ (c ++ after))))) =
        .ok (around.fill (.string v))) ∧
    ∃ around : Script.Around,
      Script.ofSource source = .ok (around.fill (.string "c")) ∧
      Script.ofSource (String.ofList (before ++ b ++ between ++ (literal w.toList ++ after))) =
        .ok (around.fill (.string w)) := by
  intro before between after b c source v w
  let outer : Token := { kind := .string, text := b, start := 2 }
  let inner : Token := { kind := .string, text := c, start := 10 }
  let template : Token := Token.backticked 8 (openingBrace :: c ++ [closingBrace])
  have hread : (ofSource source).toOption.isSome := by
    dsimp only [source, before, after]
    decide +kernel
  obtain ⟨script, hscript⟩ := Option.isSome_iff_exists.1 hread
  have hok := toOption_eq_some.1 hscript
  constructor
  · have houter : outer ∈ Token.scan 0 source.toList := by decide +kernel
    obtain ⟨around, hsame, hreplaced⟩ := literals_hold_any_text.2.1 source script hok 0 _ .self outer
      houter rfl before _ String.toList_ofList rfl
    exact ⟨around, hsame ▸ hok, hreplaced v (.inl houter)⟩
  · have htemplate : template ∈ Token.scan 0 source.toList := by decide +kernel
    have hcode : .code 10 c ∈ Piece.ofBody 9 template.body := by
      have hliteral : read 10 c = .ok (.single (.string "c")) := read_literal 10 "c"
      rw [Token.body_backticked, Piece.ofBody_braced hliteral (by decide)]
      exact List.mem_singleton_self _
    have hinner : inner ∈ Token.scan 10 c := by decide +kernel
    obtain ⟨around, hsame, hreplaced⟩ := literals_hold_any_text.2.1 source script hok 10 c
      (.template htemplate rfl hcode .self) inner hinner rfl (before ++ b ++ between) after
      String.toList_ofList rfl
    exact ⟨around, hsame ▸ hok, hreplaced w (.inr (by decide))⟩

end Script
end Tabletop
