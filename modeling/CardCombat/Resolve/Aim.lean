import CardCombat.Resolve.Context

/-!
# Finding combatants

Whom an aim finds in a combat. Only the living are found. All aims but the random enemy are fixed:
they find someone without drawing.
-/

namespace CardCombat

namespace Aim

/-- The combatant whose health beats the health of all others; of several the first. -/
def leader (beats : Int → Int → Bool) (combatants : List Combatant) : Option Combatant :=
  combatants.foldl (fun best combatant =>
    match best with
    | some leader => if beats combatant.health leader.health then some combatant else best
    | none => some combatant) none

/-- The combatant with a number, if it is alive. -/
def living (combat : Combat) (id : CombatantId) : List CombatantId :=
  if combat.isAlive id then [id] else []

/-- Whom an aim finds, or in the case of the random enemy those among whom it is drawn. -/
def candidates (combat : Combat) (ctx : Context) : Aim → List CombatantId
  | .player => living combat .player
  | .self => living combat ctx.source
  | .source =>
    if ctx.triggered then (ctx.currentTarget.map (living combat)).getD []
    else living combat ctx.source
  | .enemy =>
    (([ctx.currentTarget, ctx.target].filterMap id).find? combat.isLivingEnemy
      <|> combat.livingEnemyIds.head?).toList
  | .randomEnemy => combat.livingEnemyIds
  | .weakestEnemy => ((leader (· < ·) combat.livingEnemies).map (·.id)).toList
  | .strongestEnemy => ((leader (· > ·) combat.livingEnemies).map (·.id)).toList
  | .frontEnemy => combat.livingEnemyIds.head?.toList
  | .backEnemy => combat.livingEnemyIds.getLast?.toList
  | .allEnemies => combat.livingEnemyIds
  | .everyone => living combat .player ++ combat.livingEnemyIds
  | .otherEnemies =>
    combat.livingEnemyIds.filter fun id => some id != (ctx.currentTarget <|> ctx.target)

/-- Whom an aim finds, nothing if that has to be drawn. -/
def fixed? (combat : Combat) (ctx : Context) (target : Aim) : Option (List CombatantId) :=
  if target.isRandom then none else some (target.candidates combat ctx)

/-- Whom an aim finds. -/
def find (combat : Combat) (ctx : Context) (target : Aim) : Draw (List CombatantId) :=
  let ids := target.candidates combat ctx
  if target.isRandom then do
    return ((← Draw.index ids.length).bind (ids[·]?)).toList
  else return ids

end Aim

end CardCombat
