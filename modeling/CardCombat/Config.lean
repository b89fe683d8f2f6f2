/-!
# The numbers of the rules

The few numbers of the rules that a game may set for itself.
-/

namespace CardCombat

structure Config where
  drawPerTurn : Nat := 5
  handLimit : Nat := 10
  /-- Effects nested deeper than this are not carried out. -/
  maxEffectDepth : Nat := 32
  /-- How many cards a discovery offers. -/
  discoverChoices : Nat := 3
  /-- How much playing a card charges the hero's ability. -/
  chargePerCard : Nat := 1
  deriving Repr, DecidableEq

instance : Inhabited Config := ⟨{}⟩

end CardCombat
