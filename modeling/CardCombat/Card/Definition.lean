import CardCombat.Catalog
import CardCombat.Effect.Basic

/-!
# Card definitions

What is true of all cards of one name, and the rules that join a definition with the card that lies
on the table: its cost, its properties, its effects.
-/

namespace CardCombat

structure CardDefinition where
  id : CardId
  name : String
  theme : Theme
  rarity : Rarity := .common
  cost : Cost
  upgradedCost : Option Cost := none
  keywords : Keywords := {}
  effects : List Effect := []
  upgradedEffects : Option (List Effect) := none

namespace CardDefinition

/-- The effects of a card; an upgrade without effects of its own leaves them as they are. -/
def effectsWhen (definition : CardDefinition) (upgraded : Bool) : List Effect :=
  if upgraded then definition.upgradedEffects.getD definition.effects else definition.effects

/-- The cost of a card; an upgrade without a cost of its own leaves it as it is. -/
def costWhen (definition : CardDefinition) (upgraded : Bool) : Cost :=
  if upgraded then definition.upgradedCost.getD definition.cost else definition.cost

/-- Whether a card is exhausted after it was played. -/
def exhaustsWhenPlayed (definition : CardDefinition) : Bool :=
  definition.keywords.exhaust || definition.theme == .power

/-- Whether cards of this definition are made at random. -/
def isGenerated (definition : CardDefinition) (theme : Option Theme) : Bool :=
  definition.theme != .status && definition.theme != .curse && definition.rarity != .special &&
    theme.all (definition.theme == ·)

end CardDefinition

namespace Card

/-- The energy that playing the card takes, out of `energy`. -/
def costToPlay (card : Card) (definition : CardDefinition) (energy : Int) : Except Fault Int :=
  match definition.costWhen card.upgraded with
  | .fixed cost => return max (← Signed.add cost card.costModifier) 0
  | .x => return max energy 0

def cannotBePlayed (card : Card) (definition : CardDefinition) : Bool :=
  card.unplayable || definition.keywords.unplayable

def isEthereal (card : Card) (definition : CardDefinition) : Bool :=
  card.ethereal || definition.keywords.ethereal

def isInnate (card : Card) (definition : CardDefinition) : Bool :=
  card.innate || definition.keywords.innate

/-- Whether the card stays in the hand at the end of a turn. -/
def staysInHand (card : Card) (definition : CardDefinition) : Bool :=
  card.retained || definition.keywords.retain

end Card

/-- The cards that can be made at random, in the order of the catalog. -/
def Catalog.generated (cards : Catalog CardDefinition) (theme : Option Theme) : List CardId :=
  (cards.values.filter (·.isGenerated theme)).map (·.id)

end CardCombat
