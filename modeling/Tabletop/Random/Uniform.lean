import Tabletop.Dice.Basic
import Tabletop.Random.Words

/-!
# Fair draws

To draw one of `span` equally likely results from a word `v` below `2^w`, the product `v * span` is cut
into a high part, the result, and a low part. A word is accepted only if its low part is in the `zone`,
which is chosen so that every result has the same number of accepted words; other words are passed over.

Two zones are in use. A handful of dice takes the largest possible zone. A single die takes a zone that
is cheaper to find and passes over more words.
-/

namespace Tabletop

variable {σ : Type}

/-- The results that can be drawn and the low parts that are accepted, for words below `modulus`. -/
structure Draw where
  modulus : Nat
  span : Nat
  zone : Nat
  deriving DecidableEq, Repr

namespace Draw

/-- Whether a word is accepted. -/
def accepts (d : Draw) (v : Nat) : Bool :=
  v * d.span % d.modulus ≤ d.zone

/-- The result of a word, counted from zero. -/
def result (d : Draw) (v : Nat) : Nat :=
  v * d.span / d.modulus

/-- Looks at one word: what is left behind it, and its result too if it is accepted. -/
def attempt (d : Draw) (next : σ → Nat × σ) (s : σ) : σ ⊕ (Nat × σ) :=
  let (v, s) := next s
  if d.accepts v then .inr (d.result v, s) else .inl s

/-- The result of the first accepted word, and what is left behind that word. Words are drawn until one is
accepted, however many that takes; where none ever is, the search does not end. -/
def search (d : Draw) (next : σ → Nat × σ) (s : σ) : Option (Nat × σ) :=
  match d.attempt next s with
  | .inr found => some found
  | .inl s =>
    have : Nonempty (Nat × σ) := ⟨(0, s)⟩
    repeatM (fun s => some (d.attempt next s)) s

/-- The result of the first accepted word. -/
def first? (d : Draw) (next : σ → Nat × σ) (s : σ) : Option Nat × σ :=
  match d.search next s with
  | some (result, s) => (some result, s)
  | none => (none, s)

/-- The draw with the largest zone. -/
def widest (modulus span : Nat) : Draw :=
  { modulus, span, zone := modulus - 1 - modulus % span }

/-- The draw whose zone ends just below the greatest `span * 2^k` that fits into a word of `bits` bits. -/
def shifted (bits span : Nat) : Draw :=
  { modulus := 1 <<< bits, span, zone := (span <<< (bits - 1 - span.log2)) - 1 }

end Draw

/-- The next 32-bit word as a natural number. -/
def WordSource.nextNat [WordSource σ] (s : σ) : Nat × σ :=
  let (v, s) := WordSource.next s
  (v.toNat, s)

/-- The next two words as one natural number. -/
def WordSource.nextDoubleNat [WordSource σ] (s : σ) : Nat × σ :=
  let (v, s) := WordSource.nextDouble s
  (v.toNat, s)

/-- The face that a result stands for. -/
def faceOf (result : Nat) : UInt32 :=
  UInt32.ofNat (1 + result)

/-- Throws so many dice with so many sides. -/
def throwMany [WordSource σ] (count : Nat) (sides : Quantity) (s : σ) : List UInt32 × σ :=
  match count with
  | 0 => ([], s)
  | count + 1 =>
    match (Draw.widest 0x100000000 sides.val).first? WordSource.nextNat s with
    | (none, s) => ([], s)
    | (some result, s) =>
      let (faces, s) := throwMany count sides s
      (faceOf result :: faces, s)

/-- Throws a single die. -/
def throwOne [WordSource σ] (sides : Quantity) (s : σ) : Option UInt32 × σ :=
  let (result, s) := (Draw.shifted 32 sides.val).first? WordSource.nextNat s
  (result.map faceOf, s)

/-- Throws a die with a signed number of sides; without any side nothing is thrown and the answer is
zero. -/
def throwDie [WordSource σ] (sides : Int32) (s : σ) : Int32 × σ :=
  if sides ≤ 0 then (0, s)
  else
    let (result, s) :=
      (Draw.shifted 32 sides.toInt.toNat).first? WordSource.nextNat s
    (Int32.ofNat (1 + result.getD 0), s)

/-- Throws a die with a signed 64-bit number of sides. Below zero the answer is one more than a
remainder by the number of sides, so it lies between one and the number without its sign; for the least
number of all it can wrap around. -/
def throwDouble [WordSource σ] (sides : Int64) (s : σ) : Int64 × σ :=
  if sides = 0 then (0, s)
  else if 0 < sides then
    let (result, s) :=
      (Draw.shifted 64 sides.toInt.toNat).first? WordSource.nextDoubleNat s
    (Int64.ofNat (1 + result.getD 0), s)
  else
    let (result, s) :=
      (Draw.shifted 64 0x8000000000000000).first? WordSource.nextDoubleNat s
    (Int64.ofInt ((result.getD 0 : Int).tmod sides.toInt + 1), s)

end Tabletop
