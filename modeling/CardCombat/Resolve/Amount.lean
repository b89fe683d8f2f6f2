import CardCombat.Resolve.Context

/-!
# Resolving amounts

What an amount comes to. A scaled amount is computed in binary64 numbers and brought back into the
range of quantities at the end; all others are exact.
-/

namespace CardCombat

/-- What a scaled amount counts, as it is now. The share of health is a share of one. -/
def Measure.units (combat : Combat) (ctx : Context) : Measure → Except Fault Float
  | .energy => return Float.ofInt combat.resources.energy
  | .maxEnergy => return Float.ofInt combat.resources.maxEnergy
  | .cardsInHand => return Float.ofNat (combat.piles.size .hand)
  | .cardsPlayedThisTurn => return Float.ofNat combat.cardsPlayedThisTurn
  | .block => return ((combat.combatant? ctx.source).map fun e => Float.ofInt e.block).getD 0
  | .missingHealth =>
    match combat.combatant? ctx.source with
    | some combatant => return Float.ofInt (← combatant.missingHealth)
    | none => return 0
  | .healthPercent => return ((combat.combatant? ctx.source).map (·.healthFraction)).getD 0
  | .enemyCount => return Float.ofNat combat.livingEnemies.length
  | .turn => return Float.ofNat combat.turn
  | .powerStacks => return Float.ofInt (ctx.stack.getD 0)
  | .xCost => return Float.ofInt ctx.xCost

/-- A base and an amount for each unit, both rounded down. -/
def scaledAmount (base : Int) (perUnit units : Float) : Int :=
  (Float.ofInt base + (perUnit * units).floor).floor.toInt32.toInt

/-- What an amount comes to. -/
def Value.resolve (combat : Combat) (ctx : Context) : Value → Except Fault Int
  | .fixed amount => return amount
  | .range min max => return (← Signed.add min max) / 2
  | .scaled base perUnit source max => do
    let amount := scaledAmount base perUnit (← source.units combat ctx)
    return (max.map (min amount)).getD amount
  | .powerAmount => return ctx.stack.getD 0

/-- How often something is done that is to be done that many times. -/
def Value.count (combat : Combat) (ctx : Context) (value : Value) : Except Fault Nat :=
  return (← value.resolve combat ctx).toNat

end CardCombat
