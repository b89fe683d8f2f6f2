import CardCombat.Combat.Combatant

/-!
# Events

What a combat reports while it goes on: every change that a player can see is announced by an
event, in the order in which the changes happen.
-/

namespace CardCombat

/-- Why the player is asked to choose cards. -/
inductive SelectionKind where
  | banish
  | discover (destination : Pile)
  | scry
  | tutor (destination : Pile)
  | discard
  deriving Repr, DecidableEq

inductive Event where
  | damage (target : CombatantId) (amount blocked : Int) (element : Element)
  | block (target : CombatantId) (amount : Int)
  | barrier (target : CombatantId) (amount : Int)
  | heal (target : CombatantId) (amount : Int)
  | destroyBlock (target : CombatantId) (amount : Int)
  | maxHealth (target : CombatantId) (delta : Int)
  | setHealth (target : CombatantId) (value : Int)
  | execute (target : CombatantId)
  | death (target : CombatantId)
  | combo (target : CombatantId) (name : String)
  | energy (delta value : Int)
  | energyNextTurn (amount : Int)
  | gold (delta value : Int)
  | draw (count : Nat)
  | discard (card : CardUid)
  | exhaust (card : CardUid)
  | banish (card : CardUid)
  | addCard (card : CardUid) (cardId : CardId) (pile : Pile)
  | shuffle (count : Nat)
  | retain (card : CardUid)
  | putOnDeck (card : CardUid)
  | costChange (card : CardUid) (delta : Int)
  | upgrade (card : CardUid)
  | transform (card : CardUid) (definition : CardId)
  | mill (card : CardUid)
  | cardFlag (card : CardUid) (flag : String) (value : Bool)
  | replay (card : CardUid)
  | selectionRequested (kind : SelectionKind) (count : Nat)
  | powerApplied (target : CombatantId) (power : PowerId) (amount : Int)
  | powerReduced (target : CombatantId) (power : PowerId) (amount : Int)
  | powerRemoved (target : CombatantId) (power : PowerId)
  | powerSilenced (target : CombatantId) (power : PowerId) (turns : Nat)
  | intent (enemy : CombatantId) (name : String)
  | intentWeakened (enemy : CombatantId) (amount : Int)
  | heroAbility
  | turnStart (turn : Nat)
  deriving Repr, DecidableEq

/-- The names of the kinds of selection, in order. -/
def SelectionKind.tags : List String := ["banish", "discover", "scry", "tutor", "discard"]

namespace Event

/-- The names of the events, in order. -/
def tags : List String :=
  ["damage", "block", "barrier", "heal", "destroyBlock", "maxHealth", "setHealth", "execute",
    "death", "combo", "energy", "energyNextTurn", "gold", "draw", "discard", "exhaust", "banish",
    "addCard", "shuffle", "retain", "putOnDeck", "costChange", "upgrade", "transform", "mill",
    "cardFlag", "replay", "selectionRequested", "powerApplied", "powerReduced", "powerRemoved",
    "powerSilenced", "intent", "intentWeakened", "heroAbility", "turnStart"]

def name : Event → String
  | damage .. => "damage"
  | block .. => "block"
  | barrier .. => "barrier"
  | heal .. => "heal"
  | destroyBlock .. => "destroyBlock"
  | maxHealth .. => "maxHealth"
  | setHealth .. => "setHealth"
  | execute .. => "execute"
  | death .. => "death"
  | combo .. => "combo"
  | energy .. => "energy"
  | energyNextTurn .. => "energyNextTurn"
  | gold .. => "gold"
  | draw .. => "draw"
  | discard .. => "discard"
  | exhaust .. => "exhaust"
  | banish .. => "banish"
  | addCard .. => "addCard"
  | shuffle .. => "shuffle"
  | retain .. => "retain"
  | putOnDeck .. => "putOnDeck"
  | costChange .. => "costChange"
  | upgrade .. => "upgrade"
  | transform .. => "transform"
  | mill .. => "mill"
  | cardFlag .. => "cardFlag"
  | replay .. => "replay"
  | selectionRequested .. => "selectionRequested"
  | powerApplied .. => "powerApplied"
  | powerReduced .. => "powerReduced"
  | powerRemoved .. => "powerRemoved"
  | powerSilenced .. => "powerSilenced"
  | intent .. => "intent"
  | intentWeakened .. => "intentWeakened"
  | heroAbility => "heroAbility"
  | turnStart .. => "turnStart"

end Event

end CardCombat
