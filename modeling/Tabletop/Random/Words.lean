/-!
# Streams of random words

Whatever deals out 32-bit words one after the other can drive the dice. A `Cycle` deals a fixed list
over and over.
-/

namespace Tabletop

/-- A state from which 32-bit words are drawn. -/
class WordSource (σ : Type) where
  next : σ → UInt32 × σ

/-- Draws two words and joins them, the low half first. -/
def WordSource.nextDouble {σ : Type} [WordSource σ] (s : σ) : UInt64 × σ :=
  let (low, s) := next s
  let (high, s) := next s
  (high.toUInt64 <<< 32 ||| low.toUInt64, s)

/-- A list of words that starts again when it is used up. -/
structure Cycle where
  words : Array UInt32
  place : Nat := 0
  deriving Repr

namespace Cycle

/-- The word at the present place; an empty list deals zeros. -/
def next (c : Cycle) : UInt32 × Cycle :=
  (c.words.getD (c.place % c.words.size) 0, { c with place := c.place + 1 })

instance : WordSource Cycle := ⟨Cycle.next⟩

end Cycle
end Tabletop
