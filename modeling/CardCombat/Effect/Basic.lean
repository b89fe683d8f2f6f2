import CardCombat.Effect.Value
import CardCombat.Element

/-!
# Effects

The language in which cards, powers, relics, enemy moves and hero abilities say what they do. An
effect is a value; carrying it out is the business of `CardCombat.Resolve`.
-/

namespace CardCombat

/-- How a resource changes. -/
inductive Change where
  | gain
  | lose
  | set
  deriving Repr, DecidableEq

mutual

inductive Effect where
  | damage (amount : Value) (target : Aim) (element : Element) (piercing : Bool)
    (onHit : List Effect)
  | block (amount : Value) (target : Aim)
  | barrier (amount : Value) (target : Aim)
  | heal (amount : Value) (target : Aim) (overheal : Bool)
  | lifesteal (amount : Value) (target : Aim) (element : Element) (percent : Int)
  | destroyBlock (target : Aim) (includeBarrier : Bool)
  | maxHealth (amount : Value) (target : Aim)
  | setHealth (amount : Value) (target : Aim)
  | execute (threshold : Int) (target : Aim)
  | splash (amount : Value) (target : Aim) (element : Element) (splashPercent : Int)
  | recoil (amount : Value) (target : Aim) (element : Element) (cost : Value)
  | counter (amount : Value) (target : Aim)
  | chain (amount : Value) (target : Aim) (element : Element) (bounces : Nat)
    (falloffPercent : Int)
  | weakenIntent (amount : Value) (target : Aim)
  | mark (amount : Value) (target : Aim)
  | reflect (amount : Value) (target : Aim)
  | amplify (amount : Value) (target : Aim)
  | energy (amount : Value) (operation : Change)
  | gold (amount : Value) (operation : Change)
  | energyNextTurn (amount : Value)
  | draw (amount : Value)
  | discard (amount : Value) (target : CardAim) (playerChoice : Bool)
  | exhaust (amount : Value) (target : CardAim)
  | banish (amount : Value) (target : CardAim) (playerChoice : Bool)
  | addCard (cardId : CardId) (destination : Pile) (count : Value) (upgraded : Bool)
    (position : Placement)
  | shuffle (includeDiscard : Bool)
  | retain (target : CardAim)
  | copyCard (target : CardAim) (destination : Pile) (count : Value)
  | putOnDeck (target : CardAim) (position : Placement)
  | modifyCost (amount : Value) (target : CardAim)
  | replayCard (target : CardAim) (times : Value)
  | playTopCard (count : Value)
  | discover (theme : Option Theme) (choices : Option Nat) (destination : Pile) (upgraded : Bool)
  | scry (amount : Value)
  | tutor (filter : Option CardFilter) (destination : Pile) (playerChoice : Bool)
  | upgrade (target : CardAim)
  | transform (target : CardAim) (theme : Option Theme)
  | mill (amount : Value)
  | createRandomCard (theme : Option Theme) (destination : Pile) (count : Value) (free : Bool)
    (upgraded : Bool)
  | setCardFlag (target : CardAim) (flag : CardFlag) (value : Bool)
  | addStatusCard (cardId : CardId) (destination : Pile) (count : Value)
  | applyPower (power : PowerId) (amount : Value) (target : Aim) (duration : Option Int)
  | removePower (power : PowerId) (amount : Option Value) (target : Aim)
  | transferPower (power : PowerId) (amount : Option Value) (giver : Aim)
    (receiver : Aim)
  | stealPower (power : Option PowerId) (amount : Option Value) (target : Aim)
  | silencePower (power : Option PowerId) (turns : Nat) (target : Aim)
  | conditional (condition : Condition) (yes no : List Effect)
  | repeated (times : Value) (effects : List Effect)
  | randomChoice (choices : List Branch)
  | sequence (effects : List Effect)
  | forEach (target : Subject) (effects : List Effect)

/-- Effects with a weight among others. -/
inductive Branch where
  | mk (weight : Float32) (effects : List Effect)

end

instance : Inhabited Effect := ⟨.sequence []⟩

namespace Branch

def weight : Branch → Float32
  | .mk weight _ => weight

def effects : Branch → List Effect
  | .mk _ effects => effects

end Branch

/-- Unless something else is said a resource is gained. -/
instance : Inhabited Change := ⟨.gain⟩

namespace Change

def all : List Change := [.gain, .lose, .set]

def name : Change → String
  | .gain => "gain"
  | .lose => "lose"
  | .set => "set"

end Change

namespace Effect

/-- The names of the effects, in order. -/
def tags : List String :=
  ["damage", "block", "barrier", "heal", "lifesteal", "destroyBlock", "maxHealth", "setHealth",
    "execute", "splash", "recoil", "counter", "chain", "weakenIntent", "mark", "reflect",
    "amplify", "energy", "gold", "energyNextTurn", "draw", "discard", "exhaust", "banish",
    "addCard", "shuffle", "retain", "copyCard", "putOnDeck", "modifyCost", "replayCard",
    "playTopCard", "discover", "scry", "tutor", "upgrade", "transform", "mill",
    "createRandomCard", "setCardFlag", "addStatusCard", "applyPower", "removePower",
    "transferPower", "stealPower", "silencePower", "conditional", "repeat", "randomChoice",
    "sequence", "forEach"]

def name : Effect → String
  | damage .. => "damage"
  | block .. => "block"
  | barrier .. => "barrier"
  | heal .. => "heal"
  | lifesteal .. => "lifesteal"
  | destroyBlock .. => "destroyBlock"
  | maxHealth .. => "maxHealth"
  | setHealth .. => "setHealth"
  | execute .. => "execute"
  | splash .. => "splash"
  | recoil .. => "recoil"
  | counter .. => "counter"
  | chain .. => "chain"
  | weakenIntent .. => "weakenIntent"
  | mark .. => "mark"
  | reflect .. => "reflect"
  | amplify .. => "amplify"
  | energy .. => "energy"
  | gold .. => "gold"
  | energyNextTurn .. => "energyNextTurn"
  | draw .. => "draw"
  | discard .. => "discard"
  | exhaust .. => "exhaust"
  | banish .. => "banish"
  | addCard .. => "addCard"
  | shuffle .. => "shuffle"
  | retain .. => "retain"
  | copyCard .. => "copyCard"
  | putOnDeck .. => "putOnDeck"
  | modifyCost .. => "modifyCost"
  | replayCard .. => "replayCard"
  | playTopCard .. => "playTopCard"
  | discover .. => "discover"
  | scry .. => "scry"
  | tutor .. => "tutor"
  | upgrade .. => "upgrade"
  | transform .. => "transform"
  | mill .. => "mill"
  | createRandomCard .. => "createRandomCard"
  | setCardFlag .. => "setCardFlag"
  | addStatusCard .. => "addStatusCard"
  | applyPower .. => "applyPower"
  | removePower .. => "removePower"
  | transferPower .. => "transferPower"
  | stealPower .. => "stealPower"
  | silencePower .. => "silencePower"
  | conditional .. => "conditional"
  | repeated .. => "repeat"
  | randomChoice .. => "randomChoice"
  | sequence .. => "sequence"
  | forEach .. => "forEach"

/-- Whether the effect only decides how others are carried out. -/
def isMeta : Effect → Bool
  | conditional .. | repeated .. | randomChoice .. | sequence .. | forEach .. => true
  | _ => false

/-! ## Common effects -/

/-- A plain hit. -/
def hit (amount : Value) (target : Aim) (element : Element) : Effect :=
  .damage amount target element false []

def strike (amount : Value) (target : Aim) : Effect := hit amount target .physical

/-- Healing up to the greatest health. -/
def mend (amount : Value) (target : Aim) : Effect := .heal amount target false

/-- A power without a duration of its own. -/
def grant (power : PowerId) (amount : Value) (target : Aim) : Effect :=
  .applyPower power amount target none

end Effect

end CardCombat
