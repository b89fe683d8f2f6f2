import CardCombat.Random.Rng

/-!
# Choosing from a collection

Shuffling, picking one element, sampling several and picking by weight. Positions in a collection
are drawn from single words as long as the bound has a single word.

A sample of `amount` indices is taken in one of two ways. A small sample of a large collection is
collected index by index, replacing an index that was already taken by the largest one in play; a
large sample is the front of a partial shuffle. Which one is used is part of the rule, since they
read different numbers from the stream.
-/

namespace CardCombat.Draw

/-- A position below a positive `bound`. -/
def place (bound : Nat) : Draw Nat :=
  below (if bound < 1 <<< 32 then .single else .double) bound

/-! ## Shuffling and picking -/

/-- Exchanges position `i` with a random one not above it, for `i` from the given one down to 1. -/
def shuffleFrom {α : Type} : Nat → Array α → Draw (Array α)
  | 0, xs => return xs
  | i + 1, xs => do
    let j ← place (i + 2)
    shuffleFrom i (xs.swapIfInBounds (i + 1) j)

/-- A random rearrangement. -/
def shuffle {α : Type} (xs : List α) : Draw (List α) := do
  return (← shuffleFrom (xs.length - 1) xs.toArray).toList

/-- A random element, nothing (and no draw) if there is none. -/
def choose {α : Type} (xs : List α) : Draw (Option α) :=
  if xs.isEmpty then return none else do
    return xs[← place xs.length]?

/-! ## Sampling -/

/-- Exchanges each of the `count` positions from `i` on with a random one from it on. -/
def shuffleFront {α : Type} : Nat → Nat → Array α → Draw (Array α)
  | 0, _, xs => return xs
  | count + 1, i, xs => do
    let j ← place (xs.size - i)
    shuffleFront count (i + 1) (xs.swapIfInBounds i (i + j))

/-- Adds an index not above `j`, all indices so far being below `j`: the one drawn, or `j` in place
of one that is there already. With `keepOrder` the newcomer goes before the one it stands for. -/
def collectOne (keepOrder : Bool) (indices : List Nat) (j : Nat) : Draw (List Nat) := do
  let t ← place (j + 1)
  if t ∈ indices then
    if keepOrder then return indices.insertIdx (indices.idxOf t) j
    else return indices ++ [j]
  else
    return indices ++ [t]

/-- `amount` indices below `size`, collected one by one. -/
def collect (keepOrder : Bool) (size amount : Nat) : Draw (List Nat) :=
  (List.range' (size - amount) amount).foldlM (collectOne keepOrder) []

/-- Whether a sample is the front of a partial shuffle. -/
def shufflesFront (size amount : Nat) : Bool :=
  163 ≤ amount || (11 < amount && 5 * size < (50 + 8 * amount) * amount)

/-- `amount` distinct indices below `size`, in random order; `amount` is at most `size`. -/
def sampleIndices (size amount : Nat) : Draw (List Nat) :=
  if shufflesFront size amount then do
    return (← shuffleFront amount 0 (Array.range size)).toList.take amount
  else if amount < 50 then
    collect true size amount
  else do
    shuffle (← collect false size amount)

/-- `amount` elements at distinct positions, or all of them if there are fewer. -/
def sample {α : Type} (xs : List α) (amount : Nat) : Draw (List α) := do
  let pool := xs.toArray
  return (← sampleIndices xs.length (min amount xs.length)).filterMap (pool[·]?)

/-! ## Picking by weight -/

/-- Walks along the weights, taking each positive one off `threshold`; the index at which nothing is
left, or else the last index with a positive weight. -/
def settleWeight : List Float32 → Nat → Float32 → Option Nat → Option Nat
  | [], _, _, last => last
  | weight :: rest, i, threshold, last =>
    if 0 < weight then
      let left := threshold - weight
      if left ≤ 0 then some i else settleWeight rest (i + 1) left (some i)
    else
      settleWeight rest (i + 1) threshold last

/-- An index, each with a chance in proportion to its weight; weights that are not positive have
none. Nothing (and no draw) if no weight is positive. -/
def weighted (weights : List Float32) : Draw (Option Nat) :=
  let total := (weights.filter (0 < ·)).foldl (· + ·) 0
  if 0 < total then do
    return settleWeight weights 0 ((← unit) * total) none
  else
    return none

end CardCombat.Draw
