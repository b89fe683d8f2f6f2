import CardCombat.Resolve.Aim

/-!
# Judging conditions

Whether a condition holds. What it asks of combatants has to be true of everyone its aim finds, and
there must be someone; of an aim that has to draw nothing is ever true. Counts are compared as
signed quantities.
-/

namespace CardCombat

/-- The quantity of health that is compared. -/
def HealthMeasure.quantity (combatant : Combatant) : HealthMeasure → Except Fault Int
  | .current => return combatant.health
  | .max => return combatant.maxHealth
  | .percent => combatant.healthPercent
  | .missing => combatant.missingHealth

/-- The quantity of a resource. -/
def Resource.quantity (combat : Combat) (gold : Int) : Resource → Int
  | .energy => combat.resources.energy
  | .maxEnergy => combat.resources.maxEnergy
  | .gold => gold
  | .block => combat.player.block
  | .barrier => combat.player.barrier
  | .cardsPlayedThisTurn => Signed.wrap combat.cardsPlayedThisTurn
  | .abilityCharge => Signed.wrap combat.resources.abilityCharge

/-- Whether a power holds at least so many stacks and is not silenced. -/
def PowerSet.has (powers : PowerSet) (power : PowerId) (least : Int) : Bool :=
  (powers.get? power).any fun held => !held.isSilenced && decide (least ≤ held.amount)

/-- Whether everyone an aim finds passes a test, and there is someone. -/
def Aim.allPass (combat : Combat) (ctx : Context) (target : Aim)
    (test : Combatant → Except Fault Bool) : Except Fault Bool :=
  match target.fixed? combat ctx with
  | none | some [] => return false
  | some ids => ids.allM fun id =>
    match combat.combatant? id with
    | some combatant => test combatant
    | none => return false

namespace Condition

mutual

/-- Whether a condition holds. -/
def holds (combat : Combat) (gold : Int) (ctx : Context) : Condition → Except Fault Bool
  | health target form op value =>
    target.allPass combat ctx fun combatant => return op.holds (← form.quantity combatant) value
  | resource quantity op value => return op.holds (quantity.quantity combat gold) value
  | pileCount pile op value => return op.holds (Signed.wrap (combat.piles.size pile)) value
  | turn op value => return op.holds (Signed.wrap combat.turn) value
  | enemyCount op value => return op.holds (Signed.wrap combat.livingEnemies.length) value
  | hasPower target power min =>
    target.allPass combat ctx fun combatant => return combatant.powers.has power min
  | and conditions => allHold combat gold ctx conditions
  | or conditions => anyHolds combat gold ctx conditions
  | not condition => return !(← condition.holds combat gold ctx)

/-- Whether all conditions hold, asked up to the first that does not. -/
def allHold (combat : Combat) (gold : Int) (ctx : Context) : List Condition → Except Fault Bool
  | [] => return true
  | condition :: conditions => do
    if ← condition.holds combat gold ctx then allHold combat gold ctx conditions else return false

/-- Whether one of the conditions holds, asked up to the first that does. -/
def anyHolds (combat : Combat) (gold : Int) (ctx : Context) : List Condition → Except Fault Bool
  | [] => return false
  | condition :: conditions => do
    if ← condition.holds combat gold ctx then return true else anyHolds combat gold ctx conditions

end

end Condition

end CardCombat
