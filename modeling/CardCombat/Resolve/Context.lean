import CardCombat.Run

/-!
# Contexts

The circumstances in which an effect is carried out: by whom, aimed at whom, for which card or
trigger, and how deeply nested. Every context made from another one is one level deeper, so the
depth of a context counts the effects and triggers that it is nested in.
-/

namespace CardCombat

structure Context where
  /-- Who carries out the effect. -/
  source : CombatantId := .player
  /-- Whom the player or the intent has chosen. -/
  target : Option CombatantId := none
  /-- Whom an iteration has reached, or who caused a trigger. -/
  currentTarget : Option CombatantId := none
  /-- The card that an iteration has reached. -/
  currentCard : Option Card := none
  /-- The card whose effects are carried out. -/
  card : Option CardUid := none
  /-- The stack of the power whose trigger is carried out. -/
  stack : Option Int := none
  /-- The energy that was spent on a card that takes all of it. -/
  xCost : Int := 0
  /-- By how much every hit is lowered. -/
  damagePenalty : Int := 0
  /-- Whether the effect belongs to a trigger. -/
  triggered : Bool := false
  depth : Nat := 0
  deriving Repr, DecidableEq

namespace Context

/-- The same circumstances one level deeper. -/
def deeper (ctx : Context) : Except Fault Context := do
  return { ctx with depth := ← Unsigned.add 32 ctx.depth 1 }

/-- An iteration has reached a combatant. -/
def atTarget (ctx : Context) (target : CombatantId) : Except Fault Context := do
  return { ← ctx.deeper with currentTarget := some target }

/-- An iteration has reached a card. -/
def atCard (ctx : Context) (card : Card) : Except Fault Context := do
  return { ← ctx.deeper with currentCard := some card }

/-- A trigger of `owner` is carried out; of what happened before only the cause is known to it. -/
def ofTrigger (ctx : Context) (owner : CombatantId) (cause : Option CombatantId) :
    Except Fault Context := do
  return { source := owner, currentTarget := cause, triggered := true
           depth := (← ctx.deeper).depth }

/-- A card is played once more, or off the deck: it is not part of any trigger, and no energy was
spent on it. -/
def ofReplay (ctx : Context) (card : CardUid) : Except Fault Context := do
  return { source := ctx.source, target := ctx.target, card := some card
           depth := (← ctx.deeper).depth }

end Context

end CardCombat
