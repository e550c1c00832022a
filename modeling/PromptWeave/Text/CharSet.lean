/-!
# Sets of characters by turning points

A set of characters is given by the code points at which membership turns: a character is in the
set when an odd number of turning points lie at or below it. Complement, union, intersection and
the differences are then one merge of two ascending lists.
-/
namespace PromptWeave.Text

/-- A set of code points; membership turns at each of the ascending `points`. -/
structure CharSet where
  points : List Nat
  deriving Repr, DecidableEq, Inhabited

namespace CharSet

/-- Follows the turning points up to `n`, from a stretch that is `inside` the set or not. -/
def insideAt (inside : Bool) : List Nat → Nat → Bool
  | [], _ => inside
  | p :: ps, n => if n < p then inside else insideAt (!inside) ps n

/-- Whether a character is in a set. -/
def contains (s : CharSet) (c : Char) : Bool := insideAt false s.points c.toNat

/-- No character. -/
def empty : CharSet := ⟨[]⟩

/-- Every character. -/
def full : CharSet := ⟨[0]⟩

/-- The code points from `first` to `last`, none if `last` comes before `first`. -/
def range (first last : Nat) : CharSet :=
  if first ≤ last then ⟨[first, last + 1]⟩ else empty

/-- One character. -/
def single (c : Char) : CharSet := range c.toNat c.toNat

/-- Merges two lists of turning points under a rule for membership. `inA` and `inB` tell on which
side of its list each set is, `now` whether the result is inside, and `done` holds the turning
points of the result back to front. The fuel is the number of points left in both lists. -/
def mergePoints (rule : Bool → Bool → Bool) :
    (fuel : Nat) → (inA inB now : Bool) → (a b done : List Nat) → List Nat
  | 0, _, _, _, _, _, done => done.reverse
  | fuel + 1, inA, inB, now, a, b, done =>
      let turn (p : Nat) (inA inB : Bool) (a b : List Nat) :=
        let next := rule inA inB
        mergePoints rule fuel inA inB next a b (if next == now then done else p :: done)
      match a, b with
      | [], [] => done.reverse
      | p :: a', [] => turn p (!inA) inB a' []
      | [], q :: b' => turn q inA (!inB) [] b'
      | p :: a', q :: b' =>
          if p < q then turn p (!inA) inB a' b
          else if q < p then turn q inA (!inB) a b'
          else turn p (!inA) (!inB) a' b'

/-- The first code point of the gap in which no character lies. -/
def gapStart : Nat := 0xD800

/-- The first code point after the gap. -/
def gapStop : Nat := 0xE000

/-- Moves turning points off the gap: a stretch that begins with the gap begins after it, and one
that ends with it ends before it. `bare` stands for a stretch that is nothing but the gap. -/
def settle (bare : List Nat) : List Nat → List Nat
  | [] => []
  | [p] => [if p == gapStart then gapStop else p]
  | p :: q :: rest =>
      if p == gapStart && q == gapStop then bare ++ settle bare rest
      else
        (if p == gapStart then gapStop else p) :: (if q == gapStop then gapStart else q) ::
          settle bare rest

/-- The set of the characters for which the rule holds of membership in two sets. -/
def combine (rule : Bool → Bool → Bool) (a b : CharSet) : CharSet :=
  let start := rule false false
  ⟨mergePoints rule (a.points.length + b.points.length) false false start a.points b.points
    (if start then [0] else [])⟩

/-- The characters in either set. -/
def union (a b : CharSet) : CharSet := combine (· || ·) a b

/-- The characters in both sets. -/
def inter (a b : CharSet) : CharSet := combine (· && ·) a b

/-- The characters in the first set and not in the second. -/
def diff (a b : CharSet) : CharSet :=
  ⟨settle [] (combine (fun x y => x && !y) a b).points⟩

/-- The characters in exactly one of two sets. -/
def symmDiff (a b : CharSet) : CharSet := ⟨settle [] (combine (· != ·) a b).points⟩

/-- The characters outside a set. Where two stretches meet at the gap, what lies between them is the
last character before it and the first one after it. -/
def compl (a : CharSet) : CharSet :=
  ⟨settle [gapStart - 1, gapStop + 1] (combine (fun x y => x && !y) full a).points⟩

/-- Unites neighbours in a list of sets. -/
def pairUp : List CharSet → List CharSet
  | a :: b :: rest => a.union b :: pairUp rest
  | sets => sets

/-- Unites neighbours until one set is left, or for a number of rounds. -/
def uniteIn : (rounds : Nat) → List CharSet → CharSet
  | 0, sets => sets.foldl union empty
  | _ + 1, [] => empty
  | _ + 1, [s] => s
  | rounds + 1, sets => uniteIn rounds (pairUp sets)

/-- The union of a list of sets. -/
def unions (sets : List CharSet) : CharSet := uniteIn sets.length sets

/-- Reads numbers to the base of 26. The last digit of each is a small letter and the others are
capitals; `high` is the value of those that have been read. -/
def readNumbers (high : Nat) : List Char → List Nat
  | [] => []
  | c :: rest =>
      if c.isUpper then readNumbers ((high + (c.toNat - 'A'.toNat)) * 26) rest
      else (high + (c.toNat - 'a'.toNat)) :: readNumbers 0 rest

/-- The turning points that lie the given distances apart, from `start` on. -/
def pointsFrom (start : Nat) : List Nat → List Nat
  | [] => []
  | step :: rest => (start + step) :: pointsFrom (start + step) rest

/-- The set whose turning points lie the written distances apart. -/
def ofSteps (lines : List String) : CharSet :=
  ⟨pointsFrom 0 (lines.flatMap fun line => readNumbers 0 line.toList)⟩

/-- The code points of a set as closed ranges. -/
def ranges (s : CharSet) : List (Nat × Nat) :=
  go s.points
where
  /-- Pairs the turning points; a last one alone opens a range to the end of the code space. -/
  go : List Nat → List (Nat × Nat)
    | [] => []
    | [p] => if p < 0x110000 then [(p, 0x10FFFF)] else []
    | p :: q :: rest => if p < q then (p, q - 1) :: go rest else go rest

/-- Whether no code point is in a set. -/
def isEmpty (s : CharSet) : Bool := s.ranges.isEmpty

@[simp] theorem contains_empty (c : Char) : empty.contains c = false := rfl

@[simp] theorem contains_full (c : Char) : full.contains c = true := by
  simp [contains, full, insideAt]

theorem contains_range (first last : Nat) (c : Char) :
    (range first last).contains c = decide (first ≤ c.toNat ∧ c.toNat ≤ last) := by
  by_cases h : first ≤ last
  · by_cases h1 : c.toNat < first
    · have : ¬ first ≤ c.toNat := by omega
      simp [range, h, contains, insideAt, h1, this]
    · by_cases h2 : c.toNat < last + 1
      · have h3 : first ≤ c.toNat := by omega
        have h4 : c.toNat ≤ last := by omega
        simp [range, h, contains, insideAt, h1, h2, h3, h4]
      · have h4 : ¬ c.toNat ≤ last := by omega
        simp [range, h, contains, insideAt, h1, h2, h4]
  · have : ¬ (first ≤ c.toNat ∧ c.toNat ≤ last) := by omega
    simp [range, h, this]

end CharSet
end PromptWeave.Text
