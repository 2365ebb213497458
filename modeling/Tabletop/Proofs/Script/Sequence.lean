import Tabletop.Proofs.Script.Enclosing
import Tabletop.Proofs.Script.Relocation
import Tabletop.Proofs.Token.Tokenisation
import Tabletop.Run.Meaning

/-!
# Scripts in sequence

Two source texts with a semicolon between them are one script, `Script.ofSource_append`: its tokens are
those of the first text, the semicolon, and those of the second, and its expressions are those of the
first script and then those of the second.  It is evaluated as the one script and then the other.
-/

namespace Tabletop

open Text

/-! ## Tokens -/

/-- The tokens of two texts with a semicolon between them, if the first consists of proper tokens. -/
theorem Token.scan_append_semicolon {start : Nat} {cs : List Char}
    (hproper : ∀ t ∈ scan start cs, t.kind.IsProper) (ds : List Char) :
    scan start (cs ++ ';' :: ds) =
      scan start cs ++
        { kind := .semicolon, text := [';'], start := start + width cs } ::
          scan (start + width cs + 1) ds := by
  have hrest := scans_semicolon (scans_scan (start + width cs + 1) ds)
  have hall := (scans_scan start cs).append hproper (by decide) hrest
  exact hall.scan_eq

/-! ## Trees -/

namespace Script

/-- The expressions of one script and then those of another. -/
def append : Script → Script → Script
  | .mk first rest, t => .mk first (rest ++ t.items)

theorem append_single (s : Script) (e : Expr) : s.append (.single e) = s.snoc e := by
  cases s
  rfl

theorem append_snoc (s t : Script) (e : Expr) : s.append (t.snoc e) = (s.append t).snoc e := by
  cases s
  rw [append, append, snoc, items_snoc, List.append_assoc]

/-- Behind a sequence and a semicolon a script goes on as it does by itself. -/
theorem Reads.append {semicolon : Token} {phrase : Phrase} {ts us : List Token} {s t : Script}
    (hsemicolon : semicolon.kind = .semicolon) (hs : Script.Reads .sequence ts s)
    (ht : Script.Reads phrase us t) : Script.Reads phrase (ts ++ semicolon :: us) (s.append t) :=
  match ht with
  | .program h => .program (hs.append hsemicolon h)
  | .trailing hother h => by
    rw [← List.cons_append, ← List.append_assoc]
    exact .trailing hother (hs.append hsemicolon h)
  | .item h => by
    rw [append_single]
    exact .sequence hsemicolon hs h
  | .sequence hother hl hr => by
    rw [append_snoc, ← List.cons_append, ← List.append_assoc]
    exact .sequence hother (hs.append hsemicolon hl) hr

/-- A script whose last token is no semicolon is a sequence. -/
theorem Reads.sequence_of_getLast? {ts : List Token} {s : Script} (h : Script.Reads .program ts s)
    (hlast : ∀ last ∈ ts.getLast?, last.kind ≠ .semicolon) : Script.Reads .sequence ts s := by
  cases h with
  | program h => exact h
  | trailing hsemicolon _ => exact absurd hsemicolon (hlast _ (by rw [List.getLast?_concat]; rfl))

/-- Two source texts with a semicolon between them are the two scripts in sequence. -/
theorem ofSource_append {a b : String} {s t : Script} (ha : ofSource a = .ok s)
    (hb : ofSource b = .ok t)
    (hlast : ∀ last ∈ (Token.scan 0 a.toList).getLast?, last.kind ≠ .semicolon) :
    ofSource (a ++ ";" ++ b) = .ok (s.append t) := by
  have hs := read_eq_ok_iff.1 ha
  have hplaced : read (0 + width a.toList + 1) b.toList = .ok t := by
    rw [read_eq_ok_iff_ofSource, String.ofList_toList]
    exact hb
  have hproper : ∀ t ∈ Token.scan 0 a.toList, t.kind.IsProper := fun t ht =>
    hs.derives.isProper t.kind (List.mem_map_of_mem ht)
  have htext : (a ++ ";" ++ b).toList = a.toList ++ ';' :: b.toList := by simp
  rw [ofSource, read_eq_ok_iff, htext, Token.scan_append_semicolon hproper]
  exact (hs.sequence_of_getLast? hlast).append rfl (read_eq_ok_iff.1 hplaced)

/-! ## Evaluation -/

variable {ρ : Type} [Roller ρ]

theorem evalRest_append (v : Value) (rest later : List Expr) :
    (evalRest v (rest ++ later) : Run ρ Value) = evalRest v rest >>= fun v => evalRest v later := by
  induction rest generalizing v with
  | nil => rw [evalRest, pure_bind, List.nil_append]
  | cons e rest ih =>
    rw [List.cons_append, evalRest, evalRest, bind_assoc]
    simp only [ih]

/-- Scripts in sequence are evaluated one after the other, for the value of the last. -/
theorem eval_append (s t : Script) :
    ((s.append t).eval : Run ρ Value) = s.eval >>= fun _ => t.eval := by
  cases s
  cases t
  rw [append, items, eval, eval, bind_assoc]
  simp only [evalRest_append, evalRest, eval]

end Script
end Tabletop
