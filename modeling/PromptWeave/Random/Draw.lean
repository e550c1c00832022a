import PromptWeave.Random.Generator
import PromptWeave.Words

/-!
# Fair draws

Numbers below a bound by multiplication with rejection, fractions, shuffles and samples.
-/
namespace PromptWeave.Random

/-- The width of the words that a draw takes. -/
inductive Width where
  | narrow
  | wide
  deriving Repr, DecidableEq

namespace Width

/-- The number of bits of a word. -/
def bits : Width → Nat
  | narrow => 32
  | wide => 64

/-- The number of words. -/
def count : Width → Nat
  | narrow => words32
  | wide => words64

/-- Draws one word. -/
def draw (w : Width) (g : Generator) : Nat × Generator :=
  match w with
  | narrow => let (v, g) := g.next32; (v.toNat, g)
  | wide => let (v, g) := g.next64; (v.toNat, g)

end Width

namespace Generator

/-- Draws words until the low half of the product with `n` lies in the zone of products that fall
evenly on the numbers below `n`; the high half is the answer. A draw misses the zone with a chance
below one half, so the fuel does not run out in practice; it then gives zero. -/
def belowWithin (w : Width) (n zone : Nat) : (fuel : Nat) → Generator → Nat × Generator
  | 0, g => (0, g)
  | fuel + 1, g =>
      let (v, g) := w.draw g
      let product := v * n
      if product % w.count ≤ zone then (product / w.count, g)
      else belowWithin w n zone fuel g

/-- A number below `n`, for `n` up to the number of words of the width. -/
def below (g : Generator) (w : Width) (n : Nat) : Nat × Generator :=
  if n == w.count then w.draw g
  else belowWithin w n ((n <<< (w.bits - (n.log2 + 1))) - 1) 1024 g

/-- A fraction in steps of `2⁻⁵³`, at least zero and below one. -/
def fraction (g : Generator) : Float × Generator :=
  let (v, g) := g.next64
  (Float.ofNat (v >>> 11).toNat * Float.ofBits 0x3CA0000000000000, g)

/-- Exchanges each place from `last` down to the second with a place at or below it. -/
def shuffleFrom {α : Type} : (last : Nat) → Array α → Generator → Array α × Generator
  | 0, items, g => (items, g)
  | last + 1, items, g =>
      let (j, g) := g.below .narrow (last + 2)
      shuffleFrom last (items.swapIfInBounds (last + 1) j) g

/-- A list in random order. -/
def shuffle {α : Type} (g : Generator) (items : List α) : List α × Generator :=
  let (shuffled, g) := shuffleFrom (items.length - 1) items.toArray g
  (shuffled.toList, g)

/-- Exchanges each of the first `count` places, from `place` on, with a place at or after it. -/
def dealFrom (size : Nat) : (count place : Nat) → Array Nat → Generator → Array Nat × Generator
  | 0, _, places, g => (places, g)
  | count + 1, place, places, g =>
      let (j, g) := g.below .narrow (size - place)
      dealFrom size count (place + 1) (places.swapIfInBounds place (place + j)) g

/-- Draws one place at or below each of `count` places from `place` on. A place that was drawn
before makes room: the new place goes in front of it if the order is kept random on the way, and to
the end otherwise. -/
def gatherFrom (inOrder : Bool) :
    (count place : Nat) → List Nat → Generator → List Nat × Generator
  | 0, _, drawn, g => (drawn, g)
  | count + 1, place, drawn, g =>
      let (t, g) := g.below .narrow (place + 1)
      let drawn :=
        if drawn.contains t then
          if inOrder then drawn.takeWhile (· != t) ++ place :: drawn.dropWhile (· != t)
          else drawn ++ [place]
        else drawn ++ [t]
      gatherFrom inOrder count (place + 1) drawn g

/-- The places of a sample of `count` out of `size`: dealt from the whole if the sample is a large
part of it, and gathered one by one otherwise. -/
def samplePlaces (g : Generator) (size count : Nat) : List Nat × Generator :=
  let dealt := if count < 163 then 11 < count && 5 * size < (50 + 8 * count) * count
    else size < 270 * count
  if dealt then
    let (places, g) := dealFrom size count 0 (Array.range size) g
    (places.toList.take count, g)
  else
    let (places, g) := gatherFrom (count < 50) count (size - count) [] g
    if count < 50 then (places, g) else g.shuffle places

/-- A sample without repetition. -/
def sample {α : Type} (g : Generator) (items : List α) (count : Nat) : List α × Generator :=
  let pool := items.toArray
  let (places, g) := g.samplePlaces pool.size count
  (places.filterMap fun i => pool[i]?, g)

end Generator
end PromptWeave.Random
