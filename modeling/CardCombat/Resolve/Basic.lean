import CardCombat.Resolve.Amount
import CardCombat.Resolve.CardAim
import CardCombat.Resolve.Aim
import CardCombat.Rules

/-!
# Resolutions

Carrying out an effect is a resolution: a computation that changes the scene of a run, or fails
because some quantity would leave its range. Every part of a resolution that looks at the combat
sees it as it is at that moment, so what earlier parts have changed counts for later ones.

An effect that is nested in another one is carried out through the parameter `nested` of the rules
that need it. They say what happens on one level, and `CardCombat.Resolve.Dispatch` puts the levels
together.
-/

namespace CardCombat

/-- A computation that changes the scene of a run. -/
abbrev Resolution := StateT Scene (Except Fault)

namespace Resolution

/-! ## The scene -/

/-- The combat as it is now. -/
def combat : Resolution Combat := return (← get).combat

def modifyCombat (change : Combat → Combat) : Resolution Unit :=
  modify fun scene => { scene with combat := change scene.combat }

/-- Writes a deed down. -/
def record (deed : Deed) : Resolution Unit :=
  modify fun scene => { scene with chronicle := scene.chronicle.push deed }

/-- Reports an event. -/
def report (event : Event) : Resolution Unit := modifyCombat (·.report event)

/-- Draws from the generator of the run. -/
def draw {α : Type} (draw : Draw α) : Resolution α :=
  modifyGet fun scene =>
    let (result, rng) := draw.run scene.rng
    (result, { scene with rng })

/-- The combatant with a number. -/
def combatant? (id : CombatantId) : Resolution (Option Combatant) := return (← combat).combatant? id

/-- Puts a combatant in the place of the one with a number. Whoever has lost the last health that
was left has fallen. -/
def setCombatant (id : CombatantId) (combatant : Combatant) : Resolution Unit := do
  let wasAlive := (← combat).isAlive id
  modifyCombat (·.setCombatant id combatant)
  if wasAlive && !combatant.isAlive then record (.fell id combatant)

def setPiles (piles : Piles) : Resolution Unit := modifyCombat ({ · with piles })

def setResources (resources : Resources) : Resolution Unit := modifyCombat ({ · with resources })

/-! ## Amounts and targets -/

/-- What an amount comes to now. -/
def amount (value : Value) (ctx : Context) : Resolution Int := do
  value.resolve (← combat) ctx

/-- How often something is to be done, counted now. -/
def count (value : Value) (ctx : Context) : Resolution Nat := do
  value.count (← combat) ctx

/-- Whom an aim finds now. -/
def targets (target : Aim) (ctx : Context) : Resolution (List CombatantId) := do
  draw (target.find (← combat) ctx)

/-- Which cards an aim finds now. -/
def cards (rules : Rules) (target : CardAim) (limit : Option Nat) (ctx : Context) :
    Resolution (List Card) := do
  let scene ← get
  let (cards, rng) ← (target.find rules.content.cards scene.combat ctx limit).run scene.rng
  set { scene with rng }
  return cards

/-- Does something to everyone who is aimed at and still there when the turn comes. -/
def forTargets (target : Aim) (ctx : Context) (act : CombatantId → Combatant → Resolution Unit) :
    Resolution Unit := do
  (← targets target ctx).forM fun id => do
    match ← combatant? id with
    | some combatant => act id combatant
    | none => return

/-- Does something with every card that is aimed at. -/
def forCards (rules : Rules) (target : CardAim) (limit : Option Nat) (ctx : Context)
    (act : Card → Resolution Unit) : Resolution Unit := do
  (← cards rules target limit ctx).forM act

/-! ## Choice and repetition -/

/-- Does something only if it is called for. -/
def onlyIf (called : Bool) (act : Resolution Unit) : Resolution Unit :=
  if called then act else return

/-- Does something so many times. -/
def times : Nat → Resolution Unit → Resolution Unit
  | 0, _ => return
  | n + 1, act => do
    act
    times n act

/-- Does something at most so many times, until it says that there was nothing to do; how often it
was done. -/
def upTo : Nat → Resolution Bool → Resolution Nat
  | 0, _ => return 0
  | n + 1, act => do
    if ← act then return (← upTo n act) + 1 else return 0

end Resolution

end CardCombat
