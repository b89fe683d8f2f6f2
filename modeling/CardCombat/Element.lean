import CardCombat.Effect.Condition
import CardCombat.Number.Multiplier

/-!
# Elements

A hit has an element. A target that is vulnerable to it takes half as much again, one that resists
it takes half; a hit leaves the status of its element behind. If the target already carries a
status that reacts with the element, the first such row of the table of combos takes the place of
the status that the hit would leave.
-/

namespace CardCombat

inductive Element where
  | physical
  | fire
  | ice
  | lightning
  | void
  deriving Repr, DecidableEq

/-- Unless something else is said a hit is physical. -/
instance : Inhabited Element := ⟨.physical⟩

namespace Element

def all : List Element := [.physical, .fire, .ice, .lightning, .void]

def name : Element → String
  | .physical => "physical"
  | .fire => "fire"
  | .ice => "ice"
  | .lightning => "lightning"
  | .void => "void"

/-- The status that a hit leaves behind, with its stacks. -/
def signature : Element → Option (PowerId × Int)
  | .physical => none
  | .fire => some ("burning", 3)
  | .ice => some ("frozen", 1)
  | .lightning => some ("charged", 2)
  | .void => some ("oiled", 2)

end Element

/-- What happens when an element meets a status. -/
structure Combo where
  name : String
  existing : PowerId
  element : Element
  multiplier : Multiplier := .one
  bonus : Int := 0
  /-- The share of the damage that every other enemy takes. -/
  chainPercent : Option Int := none
  /-- A status that is left behind. -/
  apply : Option (PowerId × Int) := none
  /-- The share of health below which the target dies. -/
  executeBelowPercent : Option Int := none
  deriving Repr, DecidableEq

namespace Combo

/-- The damage of a hit with the combo. -/
def scale (combo : Combo) (damage : Int) : Except Fault Int :=
  Signed.add (combo.multiplier.scale damage) combo.bonus

/-- All combos; where two apply the first one is meant. -/
def table : List Combo :=
  [{ name := "Explosion", existing := "oiled", element := .fire, multiplier := .two },
    { name := "Conduction", existing := "wet", element := .lightning, chainPercent := some 150 },
    { name := "Shatter", existing := "frozen", element := .physical,
      executeBelowPercent := some 30 },
    { name := "Thaw", existing := "frozen", element := .fire, multiplier := .oneAndHalf },
    { name := "Extinguish", existing := "burning", element := .ice, apply := some ("wet", 2) },
    { name := "Overload", existing := "charged", element := .lightning, bonus := 6 }]

/-- The combo of an element with the first status of the table that is there. -/
def find? (element : Element) (hasStatus : PowerId → Bool) : Option Combo :=
  table.find? fun combo => combo.element == element && hasStatus combo.existing

end Combo

/-- What vulnerability and resistance make of a hit; together they cancel. -/
def affinity (vulnerable resistant : Bool) : Multiplier :=
  match vulnerable, resistant with
  | true, false => .oneAndHalf
  | false, true => .half
  | _, _ => .one

end CardCombat
