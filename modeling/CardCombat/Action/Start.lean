import CardCombat.Action.Turn

/-!
# Starting runs and combats

A run starts with the deck and the relics of its hero. A combat starts with the shuffled master deck
as draw pile, with the innate cards on top, and with fresh enemies.
-/

namespace CardCombat

namespace Rules

/-- A run of a hero. -/
def newRun (rules : Rules) (hero : String) (seed : UInt64) :
    Except (Failure ContentError) Run := do
  match rules.content.heroes.find? hero with
  | some template => template.newRun seed
  | none => throw (.rejected (.unknownHero hero))

/-- The templates of the enemies of a combat. -/
def enemyTemplates (rules : Rules) (enemies : List String) :
    Except ContentError (List EnemyTemplate) :=
  enemies.mapM fun enemy =>
    match rules.content.enemies.find? enemy with
    | some template => .ok template
    | none => .error (.unknownEnemy enemy)

/-- What the player has at the beginning of a combat; a hero without a template has three energy. -/
def startingResources (rules : Rules) (run : Run) : Resources :=
  match rules.content.heroes.find? run.hero with
  | some hero =>
    { maxEnergy := hero.maxEnergy
      abilityChargeRequired := (hero.ability.map (·.chargeRequired)).getD 0 }
  | none => { maxEnergy := 3 }

/-- The player of a run as a combatant. -/
def startingPlayer (rules : Rules) (run : Run) : Combatant :=
  .ofPlayer (((rules.content.heroes.find? run.hero).map (·.name)).getD run.hero)
    run.health run.maxHealth

/-- Adds an enemy of a template. -/
def addEnemy (rules : Rules) (combat : Combat) (template : EnemyTemplate) :
    Except Fault Combat := do
  let (id, combat) ← combat.issueEnemyId
  let enemy ← template.spawn id rules.content.powers
  return { combat with enemies := combat.enemies ++ [enemy] }

/-- The combatants of a combat, before any card is on the table. -/
def gather (rules : Rules) (run : Run) (templates : List EnemyTemplate) : Except Fault Combat := do
  let empty : Combat :=
    { player := rules.startingPlayer run, resources := rules.startingResources run
      nextCardUid := ← run.nextCardUid }
  templates.foldlM rules.addEnemy empty

def isInnate (rules : Rules) (card : Card) : Bool :=
  (rules.content.cards.find? card.definition).any (card.isInnate ·)

/-- The shuffled deck with the innate cards on top. -/
def shuffledDeck (rules : Rules) (deck : List Card) : Draw (List Card) := do
  let (innate, others) := (← Draw.shuffle deck).partition rules.isInnate
  return innate ++ others

/-- Starts a combat, in the place of one that goes on. -/
def startCombat (rules : Rules) (run : Run) (enemies : List String) :
    Except (Failure ContentError) Run := do
  let templates ← rules.enemyTemplates enemies
  let combat ← rules.gather run templates
  let (drawPile, rng) := (rules.shuffledDeck run.deck).run run.rng
  let run := { run with combat := some { combat with piles := { drawPile } }, rng }
  run.advance (Resolution.openCombat rules)

end Rules

end CardCombat
