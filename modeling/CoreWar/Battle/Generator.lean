/-!
Contract: reproducible random numbers for placing warriors.

Owns:
- the generator's state, 256 bits from a 64-bit seed, and its successor (xoshiro256++);
- drawing a number below a bound without bias.

Does not own: what the numbers are used for, see `CoreWar.Battle.Basic`.
-/

namespace CoreWar

/-- The state of the generator. -/
structure Generator where
  s0 : UInt64
  s1 : UInt64
  s2 : UInt64
  s3 : UInt64
deriving DecidableEq, Repr

namespace Generator

def rotateLeft (word count : UInt64) : UInt64 :=
  (word <<< count) ||| (word >>> (64 - count))

def rotateRight (word count : UInt32) : UInt32 :=
  if count = 0 then word else (word >>> count) ||| (word <<< (32 - count))

/-! ## From a seed -/

/-- The linear congruential step that spreads a seed. -/
def seedStep (seed : UInt64) : UInt64 :=
  seed * 6364136223846793005 + 11634580027462260723

/-- The 32 bits taken from a spread seed: its high bits, rotated by its highest five. -/
def seedOutput (seed : UInt64) : UInt32 :=
  rotateRight (((seed ^^^ (seed >>> 18)) >>> 27).toUInt32) (seed >>> 59).toUInt32

/-- Two steps of spreading give a word, low half first. -/
def seedWord (seed : UInt64) : UInt64 × UInt64 :=
  let low := seedStep seed
  let high := seedStep low
  ((seedOutput low).toUInt64 ||| ((seedOutput high).toUInt64 <<< 32), high)

/-- The generator with this seed. -/
def ofSeed (seed : UInt64) : Generator :=
  let (s0, seed) := seedWord seed
  let (s1, seed) := seedWord seed
  let (s2, seed) := seedWord seed
  let (s3, _) := seedWord seed
  ⟨s0, s1, s2, s3⟩

/-! ## Drawing -/

/-- The next word, and the generator after it. -/
def next (generator : Generator) : UInt64 × Generator :=
  let ⟨s0, s1, s2, s3⟩ := generator
  let word := rotateLeft (s0 + s3) 23 + s0
  let shifted := s1 <<< 17
  let s2 := s2 ^^^ s0
  let s3 := s3 ^^^ s1
  let s1 := s1 ^^^ s2
  let s0 := s0 ^^^ s3
  (word, ⟨s0, s1, s2 ^^^ shifted, rotateLeft s3 45⟩)

/-- The largest low half of a product that is accepted: one less than the greatest multiple of the
bound by a power of two that is a word. -/
def acceptance (bound : UInt64) : UInt64 :=
  (bound <<< (63 - bound.log2)) - 1

/-- Draws until the low half of the product with the bound is accepted, and answers its high half.
A draw is refused with a probability below one half, so that the attempts, if there are many, do
not run out; if they do, the answer is zero. -/
def belowWithin (bound : UInt64) : Nat → Generator → UInt64 × Generator
  | 0, generator => (0, generator)
  | attempts + 1, generator =>
    let (word, generator) := generator.next
    let product := word.toNat * bound.toNat
    if UInt64.ofNat (product % UInt64.size) ≤ acceptance bound then
      (UInt64.ofNat (product / UInt64.size), generator)
    else
      belowWithin bound attempts generator

/-- Draws a number below a positive bound. -/
def below (generator : Generator) (bound : UInt64) : UInt64 × Generator :=
  belowWithin bound 65536 generator

end Generator

end CoreWar
