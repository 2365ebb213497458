import Tabletop.Script.Pending
import Tabletop.Script.Template

/-!
# Reading scripts and templates

A source text is read as a script, or all of it is read as the body of a template. The scripts inside a
template are read in the same way, at the bytes where they stand.
-/

namespace Tabletop

open Text

namespace Token

theorem length_le_of_mem_scan {start : Nat} {cs : List Char} {t : Token} (h : t ∈ scan start cs) :
    t.text.length ≤ cs.length := by
  fun_induction scan start cs with
  | case1 => cases h
  | case2 start c cs hspace ih =>
    have := ih h
    simp only [List.length_cons]
    omega
  | case3 start c cs hspace kind length heq text ih =>
    rcases List.mem_cons.1 h with h | h
    · subst h
      simp only [text, List.length_cons, List.length_take]
      omega
    · have := ih h
      simp only [List.length_drop] at this
      simp only [List.length_cons]
      omega

theorem length_body_le (t : Token) : t.body.length ≤ t.text.length := by
  simp only [body, List.length_dropLast, List.length_tail]
  omega

end Token

namespace Script

/-- Reads a script whose first character is at the byte `start`. -/
def read (start : Nat) (source : List Char) : Except SyntaxError Script := do
  let words := (Token.scan start source).attach.map fun ⟨t, _ht⟩ =>
    { token := t,
      segments := (Piece.ofBody (t.start + 1) t.body).attach.mapM fun ⟨piece, hpiece⟩ =>
        match piece, hpiece with
        | .text cs, _ => .ok (.text (String.ofList cs))
        | .code here inner, _hcode => (read here inner).map .code
        | .fault why, _ => .error why : Word }
  let pending ← words.foldlM Pending.read .start
  pending.finish (start + width source)
termination_by source.length
decreasing_by
  have := Token.length_le_of_mem_scan _ht
  have := t.length_body_le
  have := Piece.length_lt_of_mem_ofBody _hcode
  omega

end Script

/-- What a piece of a template body stands for. -/
def Piece.read : Piece → Except SyntaxError Segment
  | .text cs => .ok (.text (String.ofList cs))
  | .code here inner => (Script.read here inner).map .code
  | .fault why => .error why

/-- Reads the body of a template whose first character is at the byte `start`. -/
def Segment.readBody (start : Nat) (body : List Char) : Except SyntaxError (List Segment) :=
  (Piece.ofBody start body).mapM Piece.read

/-- A token with what its body contains, if it is read as the body of a template. -/
def Word.ofToken (t : Token) : Word :=
  { token := t, segments := Segment.readBody (t.start + 1) t.body }

namespace Script

/-- A script is read word by word. -/
theorem read_eq (start : Nat) (source : List Char) :
    read start source =
      (((Token.scan start source).map Word.ofToken).foldlM Pending.read .start >>= fun pending =>
        pending.finish (start + width source)) := by
  rw [read]
  congr 2
  conv => rhs; rw [← List.attach_map_subtype_val (Token.scan start source), List.map_map]
  apply List.map_congr_left
  rintro ⟨t, ht⟩ _
  simp only [Function.comp_apply, Word.ofToken, Segment.readBody, Word.mk.injEq, true_and]
  conv => rhs; rw [← List.attach_map_subtype_val (Piece.ofBody (t.start + 1) t.body), List.mapM_map]
  congr 1
  funext ⟨piece, hpiece⟩
  cases piece <;> rfl

/-- Scripts are inside one another only so deep, since those inside a template are shorter than the text that
the template stands in. -/
theorem insideInduction {motive : Nat → List Char → Prop}
    (inside : ∀ start source,
      (∀ t ∈ Token.scan start source, ∀ here inner,
        .code here inner ∈ Piece.ofBody (t.start + 1) t.body → motive here inner) →
      motive start source)
    (start : Nat) (source : List Char) : motive start source := by
  induction hlength : source.length using Nat.strongRecOn generalizing start source with
  | ind n ih =>
    refine inside start source fun t ht here inner hcode => ?_
    have hinner := Piece.length_lt_of_mem_ofBody hcode
    have hbody := t.length_body_le
    have htext := Token.length_le_of_mem_scan ht
    exact ih inner.length (by omega) here inner rfl

/-- Reads a whole source text as a script. -/
def ofSource (source : String) : Except SyntaxError Script :=
  read 0 source.toList

/-- Reads a whole source text as the body of a template. -/
def ofTemplate (source : String) : Except SyntaxError Script :=
  (Segment.readBody 0 source.toList).map fun segments => .single (.template segments)

end Script
end Tabletop
