import CardCombat.Power.Held

/-!
# Combatants

The player and the enemies. A combatant has health up to a greatest health, block and barrier that
stand before it, and powers; an enemy also has a template, affinities, a declared intent and a
memory of its last move.
-/

namespace CardCombat

/-- The number of a combatant; the player has number zero. -/
structure CombatantId where
  number : Nat
  deriving Repr, DecidableEq, Inhabited

inductive IntentKind where
  | attack
  | defend
  | buff
  | debuff
  | unknown
  deriving Repr, DecidableEq

/-- The move that an enemy will make on its next turn. -/
structure Intent where
  moveIndex : Nat
  name : String
  kind : IntentKind
  effects : List Effect
  /-- By how much every hit of the move is lowered. -/
  weakened : Int

/-- What an enemy has beyond what every combatant has. -/
structure EnemyRole where
  template : String
  vulnerabilities : List Element
  resistances : List Element
  intent : Option Intent := none
  lastMove : Option Nat := none

/-- A combatant. -/
structure Combatant where
  id : CombatantId
  name : String
  health : Int
  maxHealth : Int
  block : Int := 0
  barrier : Int := 0
  powers : PowerSet := []
  enemy : Option EnemyRole := none

/-- What became of damage. -/
structure DamageReport where
  blocked : Int
  healthLost : Int
  killed : Bool
  deriving Repr, DecidableEq

namespace CombatantId

def player : CombatantId := ⟨0⟩

def firstEnemy : CombatantId := ⟨1⟩

def isPlayer (id : CombatantId) : Bool := id == player

def text (id : CombatantId) : String :=
  if id.isPlayer then "Player" else "Enemy(" ++ toString id.number ++ ")"

end CombatantId

namespace IntentKind

def all : List IntentKind := [.attack, .defend, .buff, .debuff, .unknown]

def name : IntentKind → String
  | .attack => "attack"
  | .defend => "defend"
  | .buff => "buff"
  | .debuff => "debuff"
  | .unknown => "unknown"

end IntentKind

namespace Combatant

/-- A player; health is brought into its range. -/
def ofPlayer (name : String) (health maxHealth : Int) : Combatant :=
  let greatest := max maxHealth 1
  { id := .player, name, health := max 0 (min greatest health), maxHealth := greatest }

/-- An enemy in full health. -/
def ofEnemy (id : CombatantId) (name : String) (maxHealth : Int) (state : EnemyRole) : Combatant :=
  let greatest := max maxHealth 1
  { id, name, health := greatest, maxHealth := greatest, enemy := some state }

/-! ## Looking -/

def isAlive (combatant : Combatant) : Bool := 0 < combatant.health

def isEnemy (combatant : Combatant) : Bool := combatant.enemy.isSome

def intent (combatant : Combatant) : Option Intent := combatant.enemy.bind (·.intent)

def isVulnerableTo (combatant : Combatant) (element : Element) : Bool :=
  combatant.enemy.any (·.vulnerabilities.contains element)

def resists (combatant : Combatant) (element : Element) : Bool :=
  combatant.enemy.any (·.resistances.contains element)

/-- How much health is missing. -/
def missingHealth (combatant : Combatant) : Except Fault Int := do
  return max (← Signed.sub combatant.maxHealth combatant.health) 0

/-- The share of health that is left. -/
def healthFraction (combatant : Combatant) : Float :=
  if combatant.maxHealth ≤ 0 then 0
  else Float.ofInt combatant.health / Float.ofInt combatant.maxHealth

/-- The share of health that is left in hundredths, rounded toward zero. -/
def healthPercent (combatant : Combatant) : Except Fault Int :=
  if combatant.maxHealth ≤ 0 then return 0
  else do return (← Signed.mul combatant.health 100).tdiv combatant.maxHealth

/-! ## Health -/

/-- What `remaining` damage leaves of a guard of `guard`: the part of the guard that is used up, and
the damage behind it. -/
def absorb (guard remaining : Int) : Except Fault (Int × Int) := do
  let used := min remaining guard
  return (used, ← Signed.sub remaining used)

/-- Takes damage: unless it pierces, block takes it first and barrier after it. -/
def takeDamage (combatant : Combatant) (amount : Int) (piercing : Bool) :
    Except Fault (DamageReport × Combatant) := do
  let damage := max amount 0
  let (fromBlock, damage) ← if piercing then pure (0, damage) else absorb combatant.block damage
  let (fromBarrier, damage) ← if piercing then pure (0, damage) else absorb combatant.barrier damage
  let blocked ← Signed.add fromBlock fromBarrier
  let block ← Signed.sub combatant.block fromBlock
  let barrier ← Signed.sub combatant.barrier fromBarrier
  let health := max (← Signed.sub combatant.health damage) 0
  let hurt := { combatant with block, barrier, health }
  return ({ blocked, healthLost := min damage (max combatant.health 0),
            killed := combatant.isAlive && !hurt.isAlive }, hurt)

/-- Loses health; how much was lost. -/
def loseHealth (combatant : Combatant) (amount : Int) : Except Fault (Int × Combatant) := do
  let (outcome, combatant) ← combatant.takeDamage amount true
  return (outcome.healthLost, combatant)

/-- Gains health, up to the greatest health unless it may go beyond; the dead gain none. How much
was gained. -/
def heal (combatant : Combatant) (amount : Int) (overheal : Bool) :
    Except Fault (Int × Combatant) :=
  if amount ≤ 0 || !combatant.isAlive then return (0, combatant)
  else do
    let raised := Signed.saturate (combatant.health + amount)
    let health := if overheal then raised else min raised (max combatant.maxHealth combatant.health)
    return (← Signed.sub health combatant.health, { combatant with health })

/-- Changes the greatest health, which stays positive; a gain is a gain of health too. -/
def changeMaxHealth (combatant : Combatant) (delta : Int) : Except Fault Combatant := do
  let maxHealth := max (← Signed.add combatant.maxHealth delta) 1
  let health ← if 0 < delta && combatant.isAlive then Signed.add combatant.health delta
    else pure combatant.health
  return { combatant with maxHealth, health := ← Signed.clamp health 0 maxHealth }

/-- Sets health to a value in its range. -/
def setHealth (combatant : Combatant) (value : Int) : Except Fault Combatant := do
  return { combatant with health := ← Signed.clamp value 0 combatant.maxHealth }

end Combatant

end CardCombat
