import CardCombat.Resolve.Hit

/-!
# Health and guards

The effects that change health, block and barrier without a hit. Health that is set to zero kills,
and so does an execution; both bring death with all that follows from it.
-/

namespace CardCombat.Resolution

variable (rules : Rules) (nested : List Effect → Context → Resolution Unit)

/-- The block that an amount gives: outside of triggers the powers of whoever gives it modify it. -/
def blockGained (base : Int) (ctx : Context) : Resolution Int := do
  match ← combatant? ctx.source with
  | some source =>
    if ctx.triggered then return max base 0
    else return ← source.blockGiven rules.content.powers base
  | none => return max base 0

def block (amount : Value) (target : Aim) (ctx : Context) : Resolution Unit := do
  let gained ← blockGained rules (← Resolution.amount amount ctx) ctx
  if gained != 0 then
    forTargets target ctx fun id combatant => do
      let block ← Signed.add combatant.block gained
      setCombatant id { combatant with block }
      report (.block id gained)
      react rules nested id .block (some ctx.source) ctx

def barrier (amount : Value) (target : Aim) (ctx : Context) : Resolution Unit := do
  let gained := max (← Resolution.amount amount ctx) 0
  if gained != 0 then
    forTargets target ctx fun id combatant => do
      let barrier ← Signed.add combatant.barrier gained
      setCombatant id { combatant with barrier }
      report (.barrier id gained)

def heal (amount : Value) (target : Aim) (overheal : Bool) (ctx : Context) :
    Resolution Unit := do
  let amount ← Resolution.amount amount ctx
  forTargets target ctx fun id combatant => do
    let (healed, combatant) ← combatant.heal amount overheal
    setCombatant id combatant
    if 0 < healed then report (.heal id healed)

/-- Takes all block away, and all barrier too if it is included. -/
def destroyBlock (target : Aim) (includeBarrier : Bool) (ctx : Context) :
    Resolution Unit :=
  forTargets target ctx fun id combatant => do
    let removed ← if includeBarrier then Signed.add combatant.block combatant.barrier
      else pure combatant.block
    let barrier := if includeBarrier then 0 else combatant.barrier
    setCombatant id { combatant with block := 0, barrier }
    if 0 < removed then report (.destroyBlock id removed)

def changeMaxHealth (amount : Value) (target : Aim) (ctx : Context) :
    Resolution Unit := do
  let delta ← Resolution.amount amount ctx
  if delta != 0 then
    forTargets target ctx fun id before => do
      let combatant ← before.changeMaxHealth delta
      setCombatant id combatant
      let delta ← Signed.sub combatant.maxHealth before.maxHealth
      if delta != 0 then report (.maxHealth id delta)

def setHealth (amount : Value) (target : Aim) (ctx : Context) : Resolution Unit := do
  let value ← Resolution.amount amount ctx
  forTargets target ctx fun id combatant => do
    let combatant ← combatant.setHealth value
    setCombatant id combatant
    report (.setHealth id combatant.health)
    if !combatant.isAlive then die rules nested ctx id ctx.source

/-- Kills everyone with no more than a share of health left. -/
def execute (threshold : Int) (target : Aim) (ctx : Context) : Resolution Unit :=
  forTargets target ctx fun id combatant => do
    if (← combatant.healthPercent) ≤ threshold then
      setCombatant id (← combatant.setHealth 0)
      report (.execute id)
      die rules nested ctx id ctx.source

end CardCombat.Resolution
