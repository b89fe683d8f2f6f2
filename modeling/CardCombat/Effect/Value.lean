import CardCombat.Number.Checked

/-!
# Amounts of an effect

The amount of an effect is a fixed number or a rule that gives one when the effect is carried out.
-/

namespace CardCombat

/-- What a scaled amount counts. -/
inductive Measure where
  | energy
  | maxEnergy
  | cardsInHand
  | cardsPlayedThisTurn
  | block
  | missingHealth
  | healthPercent
  | enemyCount
  | turn
  | powerStacks
  | xCost
  deriving Repr, DecidableEq

/-- An amount. -/
inductive Value where
  | fixed (amount : Int)
  /-- The middle of two numbers, rounded down. -/
  | range (min max : Int)
  /-- A base and an amount for each unit of what is counted, up to a cap. -/
  | scaled (base : Int) (perUnit : Float) (source : Measure) (max : Option Int)
  /-- The stacks of the power whose trigger is being carried out. -/
  | powerAmount
  deriving Repr

/-- An amount of which nothing is said is zero. -/
instance : Inhabited Value := ⟨.fixed 0⟩

namespace Measure

def all : List Measure :=
  [.energy, .maxEnergy, .cardsInHand, .cardsPlayedThisTurn, .block, .missingHealth,
    .healthPercent, .enemyCount, .turn, .powerStacks, .xCost]

def name : Measure → String
  | .energy => "energy"
  | .maxEnergy => "maxEnergy"
  | .cardsInHand => "cardsInHand"
  | .cardsPlayedThisTurn => "cardsPlayedThisTurn"
  | .block => "block"
  | .missingHealth => "missingHealth"
  | .healthPercent => "healthPercent"
  | .enemyCount => "enemyCount"
  | .turn => "turn"
  | .powerStacks => "powerStacks"
  | .xCost => "xCost"

end Measure

namespace Value

/-- The names of the rules, in order. -/
def tags : List String := ["range", "scaled", "powerAmount"]

def one : Value := .fixed 1

end Value

end CardCombat
