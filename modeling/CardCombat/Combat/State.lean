import CardCombat.Combat.Event
import CardCombat.Combat.Powers

/-!
# The state of a combat

Everything that a combat consists of: the combatants, the piles and the cards being played, the
player's resources, a selection that waits for an answer, the events that were not yet fetched, and
the counters from which enemies and cards get their numbers.
-/

namespace CardCombat

inductive Phase where
  | playerTurn
  | enemyTurn
  | victory
  | defeat
  deriving Repr, DecidableEq

structure Resources where
  energy : Int := 0
  maxEnergy : Int := 0
  energyNextTurn : Int := 0
  abilityCharge : Nat := 0
  abilityChargeRequired : Nat := 0
  abilityUsedThisTurn : Bool := false
  deriving Repr, DecidableEq

/-- A choice of cards that the player has to make. -/
structure Selection where
  kind : SelectionKind
  candidates : List Card
  min : Nat
  max : Nat
  deriving Repr, DecidableEq

/-- Where a card goes after it was played. -/
inductive Route where
  | discard
  | exhaust
  | banished
  /-- It was put somewhere already. -/
  | elsewhere
  deriving Repr, DecidableEq

/-- A card being played. -/
structure ActiveCard where
  card : Card
  route : Option Route := none
  deriving Repr, DecidableEq

structure Combat where
  phase : Phase := .playerTurn
  turn : Nat := 1
  player : Combatant
  resources : Resources
  enemies : List Combatant := []
  piles : Piles := {}
  cardsPlayedThisTurn : Nat := 0
  lastPlayed : Option Card := none
  /-- The cards being played, the one played last behind the others. -/
  inPlay : List ActiveCard := []
  pending : Option Selection := none
  locked : Bool := false
  events : Array Event := #[]
  nextEnemyId : Nat := 1
  nextCardUid : Nat

namespace Phase

def all : List Phase := [.playerTurn, .enemyTurn, .victory, .defeat]

def name : Phase → String
  | .playerTurn => "playerTurn"
  | .enemyTurn => "enemyTurn"
  | .victory => "victory"
  | .defeat => "defeat"

/-- The name as a title. -/
def title (phase : Phase) : String := phase.name.capitalize

/-- Whether the combat is over. -/
def isTerminal (phase : Phase) : Bool := phase == .victory || phase == .defeat

end Phase

namespace Route

def all : List Route := [.discard, .exhaust, .banished, .elsewhere]

def name : Route → String
  | .discard => "discard"
  | .exhaust => "exhaust"
  | .banished => "banished"
  | .elsewhere => "elsewhere"

end Route

namespace Selection

/-- A selection among candidates, with bounds that they can meet. -/
def ofBounds (kind : SelectionKind) (candidates : List Card) (min max : Nat) : Selection :=
  let max := Nat.min max candidates.length
  { kind, candidates, min := Nat.min min max, max }

def isCandidate (selection : Selection) (uid : CardUid) : Bool :=
  selection.candidates.any (·.uid == uid)

end Selection

namespace Combat

/-! ## Combatants -/

def combatant? (combat : Combat) (id : CombatantId) : Option Combatant :=
  if id.isPlayer then some combat.player else combat.enemies.find? (·.id == id)

/-- Puts a combatant in the place of the first enemy with a number. -/
def replaceEnemy (id : CombatantId) (combatant : Combatant) : List Combatant → List Combatant
  | [] => []
  | enemy :: enemies =>
    if enemy.id == id then combatant :: enemies else enemy :: replaceEnemy id combatant enemies

/-- Puts a combatant in the place of the one with a number. -/
def setCombatant (combat : Combat) (id : CombatantId) (combatant : Combatant) : Combat :=
  if id.isPlayer then { combat with player := combatant }
  else { combat with enemies := replaceEnemy id combatant combat.enemies }

def livingEnemies (combat : Combat) : List Combatant := combat.enemies.filter (·.isAlive)

def livingEnemyIds (combat : Combat) : List CombatantId := combat.livingEnemies.map (·.id)

def isAlive (combat : Combat) (id : CombatantId) : Bool := (combat.combatant? id).any (·.isAlive)

def isLivingEnemy (combat : Combat) (id : CombatantId) : Bool := !id.isPlayer && combat.isAlive id

/-- Takes the dead enemies away; their numbers. -/
def reap (combat : Combat) : List CombatantId × Combat :=
  ((combat.enemies.filter (!·.isAlive)).map (·.id),
    { combat with enemies := combat.enemies.filter (·.isAlive) })

/-! ## Cards being played -/

/-- The card that is being played, the innermost one if there are several. -/
def cardInPlay (combat : Combat) : Option Card := combat.inPlay.getLast?.map (·.card)

/-- A card is being played from now on. -/
def pushInPlay (combat : Combat) (card : Card) : Combat :=
  { combat with inPlay := combat.inPlay ++ [{ card }] }

/-- The innermost card in play with this number. -/
def findInPlay? (combat : Combat) (uid : CardUid) : Option ActiveCard :=
  combat.inPlay.reverse.find? (·.card.uid == uid)

/-- Changes the innermost card in play with this number. -/
def modifyFirstInPlay (uid : CardUid) (change : ActiveCard → ActiveCard) :
    List ActiveCard → List ActiveCard
  | [] => []
  | entry :: entries =>
    if entry.card.uid == uid then change entry :: entries
    else entry :: modifyFirstInPlay uid change entries

def modifyInPlay (combat : Combat) (uid : CardUid) (change : ActiveCard → ActiveCard) : Combat :=
  { combat with inPlay := (modifyFirstInPlay uid change combat.inPlay.reverse).reverse }

/-- Takes the innermost card in play with this number out. -/
def takeInPlay? (combat : Combat) (uid : CardUid) : Option (ActiveCard × Combat) := do
  let entry ← combat.findInPlay? uid
  return (entry,
    { combat with inPlay := (combat.inPlay.reverse.eraseP (·.card.uid == uid)).reverse })

/-- The card that a number means: one in play before one in a pile. -/
def card? (combat : Combat) (uid : CardUid) : Option Card :=
  ((combat.findInPlay? uid).map (·.card)) <|> combat.piles.find? uid

/-- Changes the card that a number means. -/
def modifyCard (combat : Combat) (uid : CardUid) (change : Card → Card) : Combat :=
  if (combat.findInPlay? uid).isSome then
    combat.modifyInPlay uid fun entry => { entry with card := change entry.card }
  else { combat with piles := combat.piles.modify uid change }

/-! ## Numbers, events, outcome -/

/-- The number of the next enemy. -/
def issueEnemyId (combat : Combat) : Except Fault (CombatantId × Combat) := do
  let nextEnemyId ← Unsigned.add 32 combat.nextEnemyId 1
  return (⟨combat.nextEnemyId⟩, { combat with nextEnemyId })

/-- The number of the next card. -/
def issueCardUid (combat : Combat) : Except Fault (CardUid × Combat) := do
  let nextCardUid ← Unsigned.add 64 combat.nextCardUid 1
  return (⟨combat.nextCardUid⟩, { combat with nextCardUid })

/-- Reports an event. -/
def report (combat : Combat) (event : Event) : Combat :=
  { combat with events := combat.events.push event }

/-- Fetches the events. -/
def drain (combat : Combat) : Array Event × Combat := (combat.events, { combat with events := #[] })

/-- Whether one side is beaten. -/
def isDecided (combat : Combat) : Bool := !combat.player.isAlive || combat.livingEnemies.isEmpty

/-- Ends the combat if one side is beaten; the phase in which it ended. -/
def endIfDecided (combat : Combat) : Option Phase × Combat :=
  if combat.phase.isTerminal then (some combat.phase, combat)
  else if !combat.player.isAlive then (some .defeat, { combat with phase := .defeat })
  else if combat.livingEnemies.isEmpty then (some .victory, { combat with phase := .victory })
  else (none, combat)

end Combat

end CardCombat
