import CardCombat.Run

/-!
# Templates

What enemies, heroes and relics are made from. An enemy template chooses its moves by weight and
avoids to make the same move twice in a row if it has another.
-/

namespace CardCombat

structure EnemyMove where
  name : String
  kind : IntentKind
  weight : Float32 := 1
  effects : List Effect

structure StartingPower where
  power : PowerId
  amount : Int
  deriving Repr, DecidableEq

structure EnemyTemplate where
  id : String
  name : String
  maxHealth : Int
  moves : List EnemyMove
  vulnerabilities : List Element := []
  resistances : List Element := []
  startingPowers : List StartingPower := []

structure HeroAbility where
  name : String
  chargeRequired : Nat
  effects : List Effect

structure HeroTemplate where
  id : String
  name : String
  maxHealth : Int
  maxEnergy : Int := 3
  startingDeck : List CardId
  startingRelics : List RelicId := []
  ability : Option HeroAbility := none

structure RelicDefinition where
  id : RelicId
  name : String
  description : String := ""
  triggers : List Trigger := []

namespace EnemyTemplate

/-- An enemy of the template, with its starting powers as far as the catalog knows them. -/
def spawn (template : EnemyTemplate) (id : CombatantId) (powers : Catalog PowerDefinition) :
    Except Fault Combatant :=
  template.startingPowers.foldlM
    (fun combatant start => return (← combatant.applyPower powers start.power start.amount none).2)
    (.ofEnemy id template.name template.maxHealth
      { template := template.id, vulnerabilities := template.vulnerabilities
        resistances := template.resistances })

/-- Whether some weight but the one at index `last` is positive. -/
def hasAlternative (weights : List Float32) (last : Nat) : Bool :=
  (weights.zipIdx).any fun (weight, i) => i != last && 0 < weight

/-- The weights from which the move after the move `last` is chosen. -/
def moveWeights (template : EnemyTemplate) (last : Option Nat) : List Float32 :=
  let weights := template.moves.map fun move => if 0 < move.weight then move.weight else 0
  match last with
  | some last => if hasAlternative weights last then weights.set last 0 else weights
  | none => weights

/-- The next move, nothing if no move has a positive weight. -/
def nextMove (template : EnemyTemplate) (last : Option Nat) : Draw (Option Nat) :=
  Draw.weighted (template.moveWeights last)

/-- The intent to make a move. -/
def intent? (template : EnemyTemplate) (moveIndex : Nat) : Option Intent :=
  template.moves[moveIndex]?.map fun move =>
    { moveIndex, name := move.name, kind := move.kind, effects := move.effects, weakened := 0 }

end EnemyTemplate

namespace HeroTemplate

/-- A run of the hero with the starting deck and relics. -/
def newRun (template : HeroTemplate) (seed : UInt64) : Except Fault Run := do
  let start := Run.ofHero template.id template.maxHealth seed
  let run ← template.startingDeck.foldlM
    (fun run card => return (← Run.addToDeck run card false).2) start
  return { run with relics := template.startingRelics }

end HeroTemplate

def RelicDefinition.triggersOn (relic : RelicDefinition) (occasion : Occasion) :
    List (List Effect) :=
  Trigger.on occasion relic.triggers

end CardCombat
