import CardCombat.Effect.Aim

/-!
# Conditions

What an effect can ask about a combat before it chooses a branch. `CardCombat.Resolve.Condition`
says when a condition holds.
-/

namespace CardCombat

/-- The name of a power definition. -/
abbrev PowerId := String

inductive Comparison where
  | lt
  | le
  | eq
  | ge
  | gt
  | ne
  deriving Repr, DecidableEq

/-- Which quantity of health is compared. -/
inductive HealthMeasure where
  | current
  | max
  | percent
  | missing
  deriving Repr, DecidableEq

/-- Quantities that belong to the player. -/
inductive Resource where
  | energy
  | maxEnergy
  | gold
  | block
  | barrier
  | cardsPlayedThisTurn
  | abilityCharge
  deriving Repr, DecidableEq

inductive Condition where
  | health (target : Aim) (form : HealthMeasure) (op : Comparison) (value : Int)
  | resource (quantity : Resource) (op : Comparison) (value : Int)
  | pileCount (pile : Pile) (op : Comparison) (value : Int)
  | turn (op : Comparison) (value : Int)
  | enemyCount (op : Comparison) (value : Int)
  | hasPower (target : Aim) (power : PowerId) (min : Int)
  | and (conditions : List Condition)
  | or (conditions : List Condition)
  | not (condition : Condition)

namespace Comparison

def all : List Comparison := [.lt, .le, .eq, .ge, .gt, .ne]

def name : Comparison → String
  | .lt => "<"
  | .le => "<="
  | .eq => "="
  | .ge => ">="
  | .gt => ">"
  | .ne => "!="

/-- Whether the comparison holds between two numbers. -/
def holds (op : Comparison) (a b : Int) : Bool :=
  match op with
  | .lt => a < b
  | .le => a ≤ b
  | .eq => a == b
  | .ge => b ≤ a
  | .gt => b < a
  | .ne => a != b

end Comparison

namespace HealthMeasure

def all : List HealthMeasure := [.current, .max, .percent, .missing]

def name : HealthMeasure → String
  | .current => "current"
  | .max => "max"
  | .percent => "percent"
  | .missing => "missing"

end HealthMeasure

namespace Resource

def all : List Resource :=
  [.energy, .maxEnergy, .gold, .block, .barrier, .cardsPlayedThisTurn, .abilityCharge]

def name : Resource → String
  | .energy => "energy"
  | .maxEnergy => "maxEnergy"
  | .gold => "gold"
  | .block => "block"
  | .barrier => "barrier"
  | .cardsPlayedThisTurn => "cardsPlayedThisTurn"
  | .abilityCharge => "abilityCharge"

end Resource

/-- The names of the conditions, in order. -/
def Condition.tags : List String :=
  ["health", "resource", "pileCount", "turn", "enemyCount", "hasPower", "and", "or", "not"]

end CardCombat
