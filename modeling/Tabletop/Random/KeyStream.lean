import Tabletop.Random.Words

/-!
# The seeded stream

Words of a ChaCha key stream of twelve rounds, whose key is spread from a 64-bit seed by a permuted
congruential generator. Equal seeds deal equal words for ever.
-/

namespace Tabletop

/-- The sixteen words that the cipher works on. -/
abbrev KeyBlock := Vector UInt32 16

namespace KeyBlock

/-- A word turned left by `n` bits. -/
def rotateLeft (x n : UInt32) : UInt32 :=
  x <<< n ||| x >>> (32 - n)

/-- Adds word `b` to word `a`, mixes the sum into word `d`, and turns that by `n` bits. -/
def mix (block : KeyBlock) (a b d : Fin 16) (n : UInt32) : KeyBlock :=
  let sum := block[a] + block[b]
  (block.set a sum).set d (rotateLeft (block[d] ^^^ sum) n)

/-- Four mixing steps on four words. -/
def quarterRound (block : KeyBlock) (a b c d : Fin 16) : KeyBlock :=
  (((block.mix a b d 16).mix c d b 12).mix a b d 8).mix c d b 7

/-- Quarter rounds down the columns of the block, then along its diagonals. -/
def doubleRound (block : KeyBlock) : KeyBlock :=
  let columns := (((block.quarterRound 0 4 8 12).quarterRound 1 5 9 13).quarterRound 2 6 10 14)
    |>.quarterRound 3 7 11 15
  (((columns.quarterRound 0 5 10 15).quarterRound 1 6 11 12).quarterRound 2 7 8 13)
    |>.quarterRound 3 4 9 14

/-- Six double rounds, and the block that went in added to what comes out. -/
def scramble (block : KeyBlock) : KeyBlock :=
  (Nat.repeat doubleRound 6 block).zipWith (· + ·) block

/-- Block `index` of the stream of a key: four constants, the key, the index, and zeros, scrambled. -/
def ofKey (key : Vector UInt32 8) (index : UInt64) : KeyBlock :=
  let constants : Vector UInt32 4 := #v[0x61707865, 0x3320646e, 0x79622d32, 0x6b206574]
  let counter : Vector UInt32 4 := #v[index.toUInt32, (index >>> 32).toUInt32, 0, 0]
  scramble (constants ++ key ++ counter)

end KeyBlock

/-- The key of a stream, the block to be made next, and the words left of the block before it. -/
structure KeyStream where
  key : Vector UInt32 8
  index : UInt64 := 0
  left : List UInt32 := []
  deriving Repr

namespace KeyStream

/-- The next state of the generator that spreads a seed. -/
def spreadState (state : UInt64) : UInt64 :=
  state * 6364136223846793005 + 11634580027462260723

/-- The word that a state of that generator gives. -/
def spreadWord (state : UInt64) : UInt32 :=
  let mixed := (((state >>> 18) ^^^ state) >>> 27).toUInt32
  let turn := (state >>> 59).toUInt32
  mixed >>> turn ||| mixed <<< (32 - turn)

/-- The first `n` words that the generator gives from a state. -/
def spread (state : UInt64) : (n : Nat) → Vector UInt32 n
  | 0 => #v[]
  | n + 1 =>
    let state := spreadState state
    (#v[spreadWord state] ++ spread state n).cast (Nat.add_comm 1 n)

/-- The stream of a seed. -/
def ofSeed (seed : UInt64) : KeyStream :=
  { key := spread seed 8 }

/-- The next word, from a new block if none is left. -/
def next (stream : KeyStream) : UInt32 × KeyStream :=
  match stream.left with
  | word :: left => (word, { stream with left })
  | [] =>
    let block := KeyBlock.ofKey stream.key stream.index
    (block[0], { stream with index := stream.index + 1, left := block.toList.tail })

instance : WordSource KeyStream := ⟨KeyStream.next⟩

end KeyStream
end Tabletop
