/-!
# A seeded stream of words

The ChaCha stream cipher with twelve rounds, used as a random generator: a seed is stretched into a
key, each block of sixteen words comes from the key and a counter, and the words of the blocks form
one stream.
-/
namespace PromptWeave.Random

/-- Four words that are treated alike. -/
structure Quad where
  w0 : UInt32
  w1 : UInt32
  w2 : UInt32
  w3 : UInt32
  deriving Repr, DecidableEq, Inhabited

namespace Quad

/-- Combines two quads word by word. -/
def zip (f : UInt32 → UInt32 → UInt32) (a b : Quad) : Quad :=
  ⟨f a.w0 b.w0, f a.w1 b.w1, f a.w2 b.w2, f a.w3 b.w3⟩

/-- Rotates the bits of each word to the left. -/
def rotateBits (a : Quad) (n : UInt32) : Quad :=
  let turn (w : UInt32) : UInt32 := (w <<< n) ||| (w >>> (32 - n))
  ⟨turn a.w0, turn a.w1, turn a.w2, turn a.w3⟩

/-- Moves each word one place to the left, the first one to the end. -/
def shiftLeft (a : Quad) : Quad := ⟨a.w1, a.w2, a.w3, a.w0⟩

/-- The words in order. -/
def toList (a : Quad) : List UInt32 := [a.w0, a.w1, a.w2, a.w3]

end Quad

/-- The sixteen words of a block, in four rows. -/
structure Block where
  a : Quad
  b : Quad
  c : Quad
  d : Quad
  deriving Repr, DecidableEq

namespace Block

/-- The quarter round on each of the four columns. -/
def mixColumns (x : Block) : Block :=
  let a := x.a.zip (· + ·) x.b
  let d := (x.d.zip (· ^^^ ·) a).rotateBits 16
  let c := x.c.zip (· + ·) d
  let b := (x.b.zip (· ^^^ ·) c).rotateBits 12
  let a := a.zip (· + ·) b
  let d := (d.zip (· ^^^ ·) a).rotateBits 8
  let c := c.zip (· + ·) d
  let b := (b.zip (· ^^^ ·) c).rotateBits 7
  ⟨a, b, c, d⟩

/-- Turns the diagonals into columns. -/
def skew (x : Block) : Block :=
  ⟨x.a, x.b.shiftLeft, x.c.shiftLeft.shiftLeft, x.d.shiftLeft.shiftLeft.shiftLeft⟩

/-- Turns the columns back into diagonals. -/
def unskew (x : Block) : Block :=
  ⟨x.a, x.b.shiftLeft.shiftLeft.shiftLeft, x.c.shiftLeft.shiftLeft, x.d.shiftLeft⟩

/-- A round on the columns and one on the diagonals. -/
def doubleRound (x : Block) : Block := x.mixColumns.skew.mixColumns.unskew

/-- `n` double rounds. -/
def rounds : Nat → Block → Block
  | 0, x => x
  | n + 1, x => rounds n x.doubleRound

/-- The words in order. -/
def words (x : Block) : List UInt32 := x.a.toList ++ x.b.toList ++ x.c.toList ++ x.d.toList

end Block

/-- The generator: its key, the number of the next block, and the words of the current block that
have not been drawn. -/
structure Generator where
  keyLow : Quad
  keyHigh : Quad
  counter : UInt64
  ready : List UInt32
  deriving Repr, DecidableEq, Inhabited

namespace Generator

/-- The block of a key at a position: six double rounds, and the starting words added again. -/
def block (keyLow keyHigh : Quad) (counter : UInt64) : Block :=
  let start : Block :=
    { a := ⟨0x61707865, 0x3320646E, 0x79622D32, 0x6B206574⟩
      b := keyLow
      c := keyHigh
      d := ⟨counter.toUInt32, (counter >>> 32).toUInt32, 0, 0⟩ }
  let mixed := Block.rounds 6 start
  { a := mixed.a.zip (· + ·) start.a
    b := mixed.b.zip (· + ·) start.b
    c := mixed.c.zip (· + ·) start.c
    d := mixed.d.zip (· + ·) start.d }

/-- One step of the sequence that stretches a seed: the next state and the word read off it. -/
def stretch (state : UInt64) : UInt64 × UInt32 :=
  let state := state * 6364136223846793005 + 11634580027462260723
  let mixed := (((state >>> 18) ^^^ state) >>> 27).toUInt32
  let turn := (state >>> 59).toUInt32
  (state, (mixed >>> turn) ||| (mixed <<< ((32 - turn) % 32)))

/-- Four words of the sequence that stretches a seed. -/
def stretchQuad (state : UInt64) : UInt64 × Quad :=
  let (s0, w0) := stretch state
  let (s1, w1) := stretch s0
  let (s2, w2) := stretch s1
  let (s3, w3) := stretch s2
  (s3, ⟨w0, w1, w2, w3⟩)

/-- The generator of a seed, at the start of its stream. -/
def ofSeed (seed : UInt64) : Generator :=
  let (state, keyLow) := stretchQuad seed
  let (_, keyHigh) := stretchQuad state
  { keyLow, keyHigh, counter := 0, ready := [] }

/-- Draws the next word of the stream. -/
def next32 (g : Generator) : UInt32 × Generator :=
  match g.ready with
  | w :: rest => (w, { g with ready := rest })
  | [] =>
      let words := (block g.keyLow g.keyHigh g.counter).words
      (words.headD 0, { g with counter := g.counter + 1, ready := words.tail })

/-- Draws two words, the low half first. -/
def next64 (g : Generator) : UInt64 × Generator :=
  let (low, g) := g.next32
  let (high, g) := g.next32
  (low.toUInt64 ||| (high.toUInt64 <<< 32), g)

end Generator
end PromptWeave.Random
