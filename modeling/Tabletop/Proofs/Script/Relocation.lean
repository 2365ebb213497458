import Tabletop.Proofs.Script.Splitting
import Tabletop.Script.Reading

/-!
# Where a script stands

The byte at which a text starts shows in the faults that reading it reports, and nowhere else.  A text that
stands some bytes further on is the same script, or it has the same fault that many bytes further on,
`Script.read_add`.

Every stage of reading is moved in this way: tokens, the pieces of a template, and what has been read so
far, in which no bytes are kept.  Scripts inside templates are reached by `Script.insideInduction`.
-/

namespace Tabletop

open Text

/-! ## Faults that are changed -/

section

variable {ε ε' α β γ δ : Type} {f : ε → ε'}

theorem mapError_bind (x : Except ε α) (g : α → Except ε β) :
    (x >>= g).mapError f = x.mapError f >>= fun a => (g a).mapError f := by
  cases x <;> rfl

theorem mapError_map (g : α → β) (x : Except ε α) : (x.map g).mapError f = (x.mapError f).map g := by
  cases x <;> rfl

theorem toOption_mapError (x : Except ε α) : (x.mapError f).toOption = x.toOption := by
  cases x <;> rfl

theorem toOption_bind (x : Except ε α) (g : α → Except ε β) :
    (x >>= g).toOption = x.toOption.bind fun a => (g a).toOption := by
  cases x <;> rfl

theorem toOption_eq_some {x : Except ε α} {a : α} : x.toOption = some a ↔ x = .ok a := by
  cases x <;> simp [Except.toOption]

theorem mapM_map_eq_mapError {move : α → γ} {g : α → Except ε β} {g' : γ → Except ε' β} {xs : List α}
    (h : ∀ x ∈ xs, g' (move x) = (g x).mapError f) :
    (xs.map move).mapM g' = (xs.mapM g).mapError f := by
  induction xs with
  | nil => rfl
  | cons x xs ih =>
    obtain ⟨hx, hxs⟩ := List.forall_mem_cons.1 h
    rw [List.map_cons, List.mapM_cons, List.mapM_cons, hx, ih hxs, mapError_bind]
    simp only [mapError_bind]
    rfl

theorem foldlM_map_eq_mapError {move : α → γ} {g : δ → α → Except ε δ} {g' : δ → γ → Except ε' δ}
    (h : ∀ d x, g' d (move x) = (g d x).mapError f) (d : δ) (xs : List α) :
    (xs.map move).foldlM g' d = (xs.foldlM g d).mapError f := by
  induction xs generalizing d with
  | nil => rfl
  | cons x xs ih =>
    rw [List.map_cons, List.foldlM_cons, List.foldlM_cons, h, mapError_bind]
    simp only [ih]

end

/-! ## Further on -/

/-- The same fault `n` bytes further on. -/
def SyntaxError.shift (n : Nat) (e : SyntaxError) : SyntaxError :=
  { e with start := e.start + n, stop := e.stop + n }

/-- The same token `n` bytes further on. -/
def Token.shift (n : Nat) (t : Token) : Token :=
  { t with start := t.start + n }

/-- The same piece of a template `n` bytes further on. -/
def Piece.shift (n : Nat) : Piece → Piece
  | text cs => text cs
  | code start inner => code (start + n) inner
  | fault why => fault (why.shift n)

/-- The same word `n` bytes further on. -/
def Word.shift (n : Nat) (w : Word) : Word :=
  { token := w.token.shift n, segments := w.segments.mapError (SyntaxError.shift n) }

theorem SyntaxError.atToken_shift (n : Nat) (t : Token) (cause : Cause) :
    atToken (t.shift n) cause = (atToken t cause).shift n := by
  simp only [atToken, shift, Token.shift, Token.stop, Nat.add_right_comm]

theorem SyntaxError.unexpected_shift (n : Nat) (t : Token) (expected : List TokenKind) :
    unexpected (t.shift n) expected = (unexpected t expected).shift n :=
  atToken_shift n t _

/-! ## Tokens and pieces -/

theorem Token.scan_add (start n : Nat) (cs : List Char) :
    scan (start + n) cs = (scan start cs).map (shift n) := by
  fun_induction scan start cs with
  | case1 =>
    rw [scan]
    rfl
  | case2 start c cs hspace ih => rw [scan, if_pos hspace, Nat.add_right_comm, ih]
  | case3 start c cs hspace kind length heq text ih =>
    rw [scan, if_neg hspace, heq, List.map_cons, ← ih, Nat.add_right_comm]
    rfl

namespace Piece

theorem map_shift_ofText (n : Nat) (cs : List Char) : (ofText cs).map (shift n) = ofText cs := by
  unfold ofText
  split <;> rfl

theorem unclosed_add (start n : Nat) (cs : List Char) :
    unclosed (start + n) cs = (unclosed start cs).shift n := by
  simp only [unclosed, shift, SyntaxError.shift, Nat.add_right_comm]

theorem ofInner_add (start n : Nat) (inner : List Char) :
    ofInner (start + n) inner = (ofInner start inner).shift n := by
  unfold ofInner
  split <;> simp only [shift, SyntaxError.shift, Nat.add_right_comm]

theorem ofBody_add (start n : Nat) (body : List Char) :
    ofBody (start + n) body = (ofBody start body).map (shift n) := by
  induction body using bodyInduction generalizing start with
  | text cs hcs => rw [ofBody_of_noBrace hcs, ofBody_of_noBrace hcs, map_shift_ofText]
  | unclosed cs rest hcs hcut =>
    rw [ofBody_append_brace rest hcs, ofBody_append_brace rest hcs, hcut, List.map_append,
      map_shift_ofText, Nat.add_right_comm]
    exact congrArg (ofText cs ++ [·]) (unclosed_add _ n _)
  | code cs inner rest hcs hcut ih =>
    rw [ofBody_append_brace _ hcs, ofBody_append_brace _ hcs, hcut, List.map_append, map_shift_ofText,
      Nat.add_right_comm start]
    dsimp only
    rw [Nat.add_right_comm _ n, ih, ofInner_add, List.map_cons]

end Piece

/-! ## Reading -/

namespace Pending

variable (p : Pending) (n : Nat)

theorem readInteger_shift (t : Token) :
    p.readInteger (t.shift n) = (p.readInteger t).mapError (SyntaxError.shift n) := by
  unfold readInteger
  simp only [SyntaxError.atToken_shift]
  rw [show (t.shift n).text = t.text from rfl]
  cases Decimal.read 0x8000000000000000 t.text with
  | error why => rfl
  | ok x =>
    by_cases hx : x < 0x8000000000000000
    · simp only [hx, if_true]
      rfl
    · simp only [hx, if_false]
      split <;> rfl

theorem readOperand_shift (w : Word) :
    p.readOperand (w.shift n) = (p.readOperand w).mapError (SyntaxError.shift n) := by
  obtain ⟨t, segments⟩ := w
  simp only [readOperand, Word.shift, readInteger_shift, SyntaxError.atToken_shift,
    SyntaxError.unexpected_shift]
  simp only [Token.body, show (t.shift n).text = t.text from rfl, show (t.shift n).kind = t.kind from rfl]
  cases t.kind with
  | dice => cases DiceTerm.read t.text <;> rfl
  | template => cases segments <;> rfl
  | _ => rfl

theorem readEnd_shift (e : Expr) (t : Token) :
    p.readEnd e (t.shift n) = (p.readEnd e t).mapError (SyntaxError.shift n) := by
  unfold readEnd
  simp only [SyntaxError.unexpected_shift]
  rw [show (t.shift n).kind = t.kind from rfl]
  cases p.openings with
  | nil =>
    by_cases hkind : t.kind = .semicolon
    · simp only [hkind, if_true]
      rfl
    · simp only [hkind, if_false]
      rfl
  | cons opening openings =>
    obtain ⟨opening, links⟩ := opening
    by_cases hkind : t.kind = opening.closer
    · simp only [hkind, if_true]
      cases opening <;> rfl
    · simp only [hkind, if_false]
      rfl

theorem readConnective_shift (e : Expr) (t : Token) :
    p.readConnective e (t.shift n) = (p.readConnective e t).mapError (SyntaxError.shift n) := by
  unfold readConnective
  simp only [readEnd_shift, SyntaxError.atToken_shift]
  rw [show (t.shift n).kind = t.kind from rfl]
  cases Connective.ofKind? t.kind with
  | some op => rfl
  | none =>
    cases t.kind with
    | equal =>
      dsimp only
      split <;> rfl
    | _ => rfl

theorem read_shift (w : Word) : p.read (w.shift n) = (p.read w).mapError (SyntaxError.shift n) := by
  unfold read
  split
  · exact p.readOperand_shift n w
  · exact p.readConnective_shift n _ w.token

theorem finish_add (stop : Nat) :
    p.finish (stop + n) = (p.finish stop).mapError (SyntaxError.shift n) := by
  unfold finish
  split
  · rfl
  · rfl
  · split <;> rfl

end Pending

theorem Segment.readBody_add_of_read {start : Nat} {body : List Char} (n : Nat)
    (h : ∀ here inner, .code here inner ∈ Piece.ofBody start body →
      Script.read (here + n) inner = (Script.read here inner).mapError (SyntaxError.shift n)) :
    readBody (start + n) body = (readBody start body).mapError (SyntaxError.shift n) := by
  unfold readBody
  rw [Piece.ofBody_add]
  refine mapM_map_eq_mapError fun piece hpiece => ?_
  cases piece with
  | text cs => rfl
  | fault why => rfl
  | code here inner =>
    simp only [Piece.shift, Piece.read]
    rw [h here inner hpiece, mapError_map]

theorem Word.ofToken_shift {t : Token} (n : Nat)
    (h : ∀ here inner, .code here inner ∈ Piece.ofBody (t.start + 1) t.body →
      Script.read (here + n) inner = (Script.read here inner).mapError (SyntaxError.shift n)) :
    ofToken (t.shift n) = (ofToken t).shift n := by
  have hbody := Segment.readBody_add_of_read n h
  rw [Nat.add_right_comm] at hbody
  exact congrArg (Word.mk (t.shift n)) hbody

namespace Script

/-- A text that stands further on is the same script, or has the same fault further on.  The induction is on
how deep scripts are inside one another. -/
theorem read_add (start n : Nat) (source : List Char) :
    read (start + n) source = (read start source).mapError (SyntaxError.shift n) := by
  induction start, source using insideInduction with
  | inside start source ih =>
    have hwords : (Token.scan (start + n) source).map Word.ofToken =
        ((Token.scan start source).map Word.ofToken).map (Word.shift n) := by
      rw [Token.scan_add, List.map_map, List.map_map]
      exact List.map_congr_left fun t ht => Word.ofToken_shift n (ih t ht)
    rw [read_eq, read_eq, hwords, foldlM_map_eq_mapError (Pending.read_shift · n), mapError_bind,
      Nat.add_right_comm]
    simp only [Pending.finish_add]

/-- Whether a text is a script, and which one, does not depend on where it stands. -/
theorem read_eq_ok_iff_ofSource (start : Nat) {source : List Char} {script : Script} :
    read start source = .ok script ↔ ofSource (String.ofList source) = .ok script := by
  rw [ofSource, String.toList_ofList, ← toOption_eq_some, ← toOption_eq_some, ← Nat.zero_add start,
    read_add, toOption_mapError]

end Script

/-- The body of a template that stands further on has the same segments, or the same fault further on. -/
theorem Segment.readBody_add (start n : Nat) (body : List Char) :
    readBody (start + n) body = (readBody start body).mapError (SyntaxError.shift n) :=
  readBody_add_of_read n fun here inner _ => Script.read_add here n inner

end Tabletop
