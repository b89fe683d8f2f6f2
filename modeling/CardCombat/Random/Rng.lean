import CardCombat.Number.Checked
import CardCombat.Random.Keystream

/-!
# The generator of a run

A generator is a seed and a position in the key stream of that seed; drawing reads words and moves
the position, and that is all a draw can do. A computation that draws is a `Draw`: a function of
the generator that returns its result and the generator after it.

Whole numbers below a bound are drawn by rejection: a word is scaled to the bound and kept if the
discarded low part shows that every result keeps equally many words. Rejection ends with the first
word that is kept. Since the stream is periodic, a search that has seen a whole period without
keeping a word would never end, and `Keystream.period` attempts are enough for every search that
does.
-/

namespace CardCombat

/-- A generator: the seed and the number of words read from its stream. -/
structure Rng where
  seed : UInt64
  position : Nat := 0
  deriving Repr, DecidableEq

/-- A computation that draws random numbers. -/
abbrev Draw := StateM Rng

namespace Rng

/-- The generator of `seed` at the start of its stream. -/
def ofSeed (seed : UInt64) : Rng := ⟨seed, 0⟩

/-- The same stream, at another position. -/
def seek (rng : Rng) (position : Nat) : Rng := { rng with position := position % Keystream.period }

instance : Inhabited Rng := ⟨ofSeed 0⟩

end Rng

namespace Draw

/-! ## Words -/

/-- The next word. -/
def word : Draw UInt32 := fun rng =>
  (Keystream.word rng.seed rng.position, rng.seek (rng.position + 1))

/-- Two words, the low half first. -/
def doubleWord : Draw UInt64 := do
  let low ← word
  let high ← word
  return low.toUInt64 ||| (high.toUInt64 <<< 32)

/-- A number in the half-open unit interval, from the upper 24 binary digits of a word. -/
def unit : Draw Float32 := do
  return ((← word) >>> 8).toFloat32 * 5.9604644775390625e-8

/-! ## Bounded whole numbers -/

/-- How much of the stream one attempt reads. -/
inductive Width where
  | single
  | double
  deriving Repr, DecidableEq

def Width.bits : Width → Nat
  | .single => 32
  | .double => 64

/-- The whole number that one attempt scales. -/
def raw : Width → Draw Nat
  | .single => return (← word).toNat
  | .double => return (← doubleWord).toNat

/-- The largest low part of a product that is kept. -/
def zone (width : Width) (bound : Nat) : Nat :=
  (bound <<< (width.bits - 1 - bound.log2)) - 1

/-- Attempts until one is kept, at most `attempts` of them; the number kept is below `bound`. -/
def attempt (width : Width) (bound : Nat) : Nat → Draw Nat
  | 0 => return 0
  | attempts + 1 => do
    let product := (← raw width) * bound
    if product % (1 <<< width.bits) ≤ zone width bound then
      return product / (1 <<< width.bits)
    else
      attempt width bound attempts

/-- A whole number below `bound`. -/
def below (width : Width) (bound : Nat) : Draw Nat :=
  attempt width bound Keystream.period

/-- An index below `size` from double words, nothing (and no draw) if there is none. -/
def index (size : Nat) : Draw (Option Nat) :=
  if size = 0 then return none else some <$> below .double size

/-- An integer from `low` up to but not including `high`. -/
def range (low high : Int) : Except Fault (Draw Int) :=
  if low < high then
    .ok ((fun offset => low + (offset : Int)) <$> below .single (high - low).toNat)
  else
    .error .emptyRange

end Draw

end CardCombat
