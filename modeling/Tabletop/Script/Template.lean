import Tabletop.Script.SyntaxError
import Tabletop.Text.Blank

/-!
# Cutting a template

The body of a template is text with scripts between braces. An opening brace always begins a script. It
ends at the first closing brace that stands outside string literals, and it must not be blank.
-/

namespace Tabletop

open Text

/-- The brace that begins a script inside a template. -/
def openingBrace : Char := '\x7b'

/-- The brace that ends it. -/
def closingBrace : Char := '\x7d'

/-- Where in a script a character stands: among its tokens, in a string literal, or behind a backslash in
one. -/
inductive Place where
  | code
  | literal
  | escaped
  deriving DecidableEq, Repr

namespace Place

/-- The place behind a character. -/
def after : Place → Char → Place
  | code, c => if c = '"' then literal else code
  | literal, c => if c = '\\' then escaped else if c = '"' then code else literal
  | escaped, _ => literal

/-- The characters before the brace that ends a script, and those behind it. -/
def cut? (place : Place) : List Char → Option (List Char × List Char)
  | [] => none
  | c :: cs =>
    if place = code ∧ c = closingBrace then some ([], cs)
    else ((place.after c).cut? cs).map fun (inner, rest) => (c :: inner, rest)

theorem eq_append_of_cut? {place : Place} {cs inner rest : List Char}
    (h : place.cut? cs = some (inner, rest)) : cs = inner ++ closingBrace :: rest := by
  induction cs generalizing place inner with
  | nil => simp [cut?] at h
  | cons c cs ih =>
    rw [cut?] at h
    split at h
    · rename_i hc
      obtain ⟨rfl, rfl⟩ := Prod.mk.inj (Option.some.inj h)
      simp [hc.2]
    · obtain ⟨⟨inner', rest'⟩, hcut, hpair⟩ := Option.map_eq_some_iff.1 h
      obtain ⟨rfl, rfl⟩ := Prod.mk.inj hpair
      rw [ih hcut, List.cons_append]

end Place

/-- A piece of a template body before its scripts are read: a text, the characters of a script with the
byte of the first, or the fault at which cutting stops. -/
inductive Piece where
  | text (cs : List Char)
  | code (start : Nat) (inner : List Char)
  | fault (why : SyntaxError)
  deriving DecidableEq, Repr

namespace Piece

/-- A text as a piece, unless there is none. -/
def ofText (cs : List Char) : List Piece :=
  if cs.isEmpty then [] else [text cs]

/-- The fault that a script is never closed. -/
def unclosed (start : Nat) (cs : List Char) : Piece :=
  .fault
    { cause := .unclosedInterpolation, start, stop := start + width cs, slice := String.ofList cs }

/-- The script between two braces, the first of which is at the byte `start`. -/
def ofInner (start : Nat) (inner : List Char) : Piece :=
  if inner.all isBlank then
    let cs := openingBrace :: inner ++ [closingBrace]
    .fault
      { cause := .emptyInterpolation, start, stop := start + width cs, slice := String.ofList cs }
  else .code (start + openingBrace.utf8Size) inner

/-- The pieces of a template body whose first character is at the byte `start`. -/
def ofBody (start : Nat) (body : List Char) : List Piece :=
  match _hopen : body.dropWhile (· != openingBrace) with
  | [] => ofText body
  | brace :: cs =>
    let before := body.takeWhile (· != openingBrace)
    let here := start + width before
    match _hcut : Place.code.cut? cs with
    | none => ofText before ++ [unclosed here (brace :: cs)]
    | some (inner, rest) =>
      ofText before ++ ofInner here inner
        :: ofBody (here + width (brace :: inner ++ [closingBrace])) rest
termination_by body.length
decreasing_by
  have hle : (brace :: cs).length ≤ body.length :=
    _hopen ▸ (List.dropWhile_suffix _).length_le
  rw [Place.eq_append_of_cut? _hcut] at hle
  simp at hle
  omega

theorem code_notMem_ofText {start : Nat} {inner cs : List Char} : code start inner ∉ ofText cs := by
  unfold ofText
  split <;> simp

/-- The scripts among the pieces of a template body are shorter than the body. -/
theorem length_lt_of_mem_ofBody {start here : Nat} {body inner : List Char}
    (h : code here inner ∈ ofBody start body) : inner.length < body.length := by
  fun_induction ofBody start body with
  | case1 => exact absurd h code_notMem_ofText
  | case2 =>
    rcases List.mem_append.1 h with h | h
    · exact absurd h code_notMem_ofText
    · simp [unclosed] at h
  | case3 start body brace cs hopen before here' inner' rest hcut ih =>
    have hle : (brace :: cs).length ≤ body.length :=
      hopen ▸ (List.dropWhile_suffix _).length_le
    rw [Place.eq_append_of_cut? hcut] at hle
    simp only [List.length_cons, List.length_append] at hle
    rcases List.mem_append.1 h with h | h
    · exact absurd h code_notMem_ofText
    · rcases List.mem_cons.1 h with h | h
      · unfold ofInner at h
        split at h
        · cases h
        · cases h
          omega
      · have := ih h
        omega

end Piece
end Tabletop
