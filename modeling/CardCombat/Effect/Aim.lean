import CardCombat.Card.Pile

/-!
# Aims

What an effect says about whom or which cards it is aimed at. `CardCombat.Resolve.Aim` and
`CardCombat.Resolve.CardAim` say whom and which it finds.
-/

namespace CardCombat

/-- Whom an effect is aimed at. -/
inductive Aim where
  | player
  /-- Whoever carries out the effect. -/
  | self
  /-- Whoever carries out the effect or, inside a trigger, whoever caused it. -/
  | source
  | enemy
  | randomEnemy
  | weakestEnemy
  | strongestEnemy
  | frontEnemy
  | backEnemy
  | allEnemies
  | everyone
  | otherEnemies
  deriving Repr, DecidableEq

mutual

/-- Which cards an effect is aimed at. -/
inductive CardAim where
  | hand
  | drawPile
  | discardPile
  | exhaustPile
  | leftmostHand
  | rightmostHand
  | topOfDraw
  | randomFrom (pile : Pile)
  | thisCard
  | lastPlayed
  | current
  | filtered (filter : CardFilter)

/-- Some of the cards that another aim finds. -/
inductive CardFilter where
  | mk (base : CardAim) (count : Option Nat) (random : Bool) (theme : Option Theme)
    (maxCost : Option Int)

end

/-- Whom or which cards an iteration runs over. -/
inductive Subject where
  | combatant (target : Aim)
  | card (target : CardAim)

/-- Unless something else is said an effect is aimed at an enemy. -/
instance : Inhabited Aim := ⟨.enemy⟩

namespace Aim

def all : List Aim :=
  [.player, .self, .source, .enemy, .randomEnemy, .weakestEnemy, .strongestEnemy, .frontEnemy,
    .backEnemy, .allEnemies, .everyone, .otherEnemies]

def name : Aim → String
  | .player => "player"
  | .self => "self"
  | .source => "source"
  | .enemy => "enemy"
  | .randomEnemy => "randomEnemy"
  | .weakestEnemy => "weakestEnemy"
  | .strongestEnemy => "strongestEnemy"
  | .frontEnemy => "frontEnemy"
  | .backEnemy => "backEnemy"
  | .allEnemies => "allEnemies"
  | .everyone => "allEntities"
  | .otherEnemies => "otherEnemies"

def isRandom (target : Aim) : Bool := target == .randomEnemy

end Aim

namespace CardFilter

def base : CardFilter → CardAim
  | .mk base _ _ _ _ => base

def count : CardFilter → Option Nat
  | .mk _ count _ _ _ => count

def random : CardFilter → Bool
  | .mk _ _ random _ _ => random

def theme : CardFilter → Option Theme
  | .mk _ _ _ theme _ => theme

def maxCost : CardFilter → Option Int
  | .mk _ _ _ _ maxCost => maxCost

end CardFilter

def Subject.isCombatant : Subject → Bool
  | .combatant _ => true
  | .card _ => false

end CardCombat
