import CardCombat.Resolve.Trigger

/-!
# Hits

What happens when a combatant is hit. The amount is modified by the powers of both sides and by the
target's affinity, and a combo of the hit's element with a status of the target is consumed. Then
the damage lands, the combo has its consequences, the effects of the hit are carried out, the
status of the element is left behind, and the occasions that belong to the hit come in the order
attack, attacked, damaged, death.

A hit that belongs to a trigger is no attack: the attacker's powers do not modify it and neither
attack nor attacked comes of it. That is what keeps two combatants that strike back from doing so
for ever.
-/

namespace CardCombat

/-- A hit before anything has modified it. -/
structure Hit where
  base : Int
  element : Element
  piercing : Bool := false
  onHit : List Effect := []

/-- The damage of a hit: what the attacker, the target and its affinity make of the base. -/
def Hit.damage (hit : Hit) (powers : Catalog PowerDefinition) (combat : Combat) (ctx : Context)
    (defender : Combatant) : Except Fault Int := do
  let base := max (← Signed.sub hit.base ctx.damagePenalty) 0
  let dealt ← match combat.combatant? ctx.source with
    | some attacker => if ctx.triggered then pure base else attacker.damageDealt powers base
    | none => pure base
  let taken ← defender.damageTaken powers dealt
  return (affinity (defender.isVulnerableTo hit.element) (defender.resists hit.element)).scale taken

/-- The combo that a hit sets off, and the damage of the hit with what the combo makes of it. -/
def Hit.withCombo (hit : Hit) (powers : Catalog PowerDefinition) (combat : Combat) (ctx : Context)
    (defender : Combatant) : Except Fault (Option Combo × Int) := do
  let plain ← hit.damage powers combat ctx defender
  match Combo.find? hit.element defender.powers.contains with
  | some combo => return (some combo, ← combo.scale plain)
  | none => return (none, plain)

/-- The totals after health was lost. Only losses of the player and losses that the player causes
are counted. -/
def Stats.countDamage (stats : Stats) (source target : CombatantId) (lost : Int) :
    Except Fault Stats := do
  if target.isPlayer then
    return { stats with damageTaken := ← Unsigned.add 64 stats.damageTaken lost.toNat }
  else if source.isPlayer then
    return { stats with damageDealt := ← Unsigned.add 64 stats.damageDealt lost.toNat }
  else return stats

namespace Resolution

/-! ## Damage -/

/-- Damage reaches a combatant, if it is there. -/
def dealDamage (source target : CombatantId) (amount : Int) (element : Element) (piercing : Bool) :
    Resolution (Option DamageReport) := do
  match ← combatant? target with
  | none => return none
  | some combatant =>
    let (outcome, combatant) ← combatant.takeDamage amount piercing
    setCombatant target combatant
    report (.damage target amount outcome.blocked element)
    let stats ← (← get).stats.countDamage source target outcome.healthLost
    modify ({ · with stats })
    return some outcome

/-- A hit leaves a status behind on a living combatant. -/
def leaveStatus (rules : Rules) (target : CombatantId) (status : PowerId) (stack : Int) :
    Resolution Unit := do
  match (← combatant? target).filter (·.isAlive) with
  | none => return
  | some combatant =>
    let (applied, combatant) ← combatant.applyPower rules.content.powers status stack none
    setCombatant target combatant
    if applied.isSome then report (.powerApplied target status stack)

/-! ## Death and what else follows -/

/-- Takes the dead enemies away. -/
def bury : Resolution Unit := do
  let (dead, combat) := (← combat).reap
  modifyCombat fun _ => combat
  dead.forM fun id => record (.buried id)

/-- An enemy that was killed is counted. -/
def countKill : Resolution Unit := do
  let stats := (← get).stats
  let enemiesKilled ← Unsigned.add 64 stats.enemiesKilled 1
  modify ({ · with stats := { stats with enemiesKilled } })

/-- A combatant has died: it is reported and counted, its own triggers act, the dead enemies are
taken away, and the triggers of the killer act. -/
def die (rules : Rules) (nested : List Effect → Context → Resolution Unit) (ctx : Context)
    (victim : CombatantId) (killer : CombatantId) : Resolution Unit := do
  report (.death victim)
  record (.died victim)
  onlyIf (!victim.isPlayer) countKill
  react rules nested victim .death (some killer) ctx
  bury
  onlyIf (killer != victim) do react rules nested killer .kill (some victim) ctx

/-- The occasions that come of damage which has landed. -/
def afterDamage (rules : Rules) (nested : List Effect → Context → Resolution Unit) (ctx : Context)
    (target : CombatantId) (outcome : DamageReport) (attack : Bool) : Resolution Unit := do
  onlyIf (attack && !ctx.triggered) do
    react rules nested ctx.source .attack (some target) ctx
    react rules nested target .attacked (some ctx.source) ctx
  onlyIf (0 < outcome.healthLost) do
    react rules nested target .damaged (some ctx.source) ctx
  onlyIf outcome.killed do die rules nested ctx target ctx.source

/-- Damage that is no attack reaches a combatant, if it is there, with all that comes of it. -/
def hurt (rules : Rules) (nested : List Effect → Context → Resolution Unit) (ctx : Context)
    (target : CombatantId) (amount : Int) (element : Element) (piercing : Bool) :
    Resolution Unit := do
  match ← dealDamage ctx.source target amount element piercing with
  | some outcome => afterDamage rules nested ctx target outcome false
  | none => return

/-! ## Combos -/

/-- A combo uses up the status that it reacts with. -/
def consume (target : CombatantId) (combatant : Combatant) (combo : Combo) : Resolution Unit := do
  setCombatant target { combatant with powers := combatant.powers.remove combo.existing }
  report (.combo target combo.name)
  report (.powerRemoved target combo.existing)

/-- A share of the damage of a combo leaps to every other living enemy. -/
def leap (rules : Rules) (nested : List Effect → Context → Resolution Unit) (ctx : Context)
    (target : CombatantId) (element : Element) (damage : Int) : Resolution Unit := do
  ((← combat).livingEnemyIds.filter (· != target)).forM fun other =>
    hurt rules nested ctx other damage element false

/-- A living combatant dies if less than a share of its health is left; whether it did. -/
def executeBelow (target : CombatantId) (percent : Int) : Resolution Bool := do
  match (← combatant? target).filter (·.isAlive) with
  | none => return false
  | some combatant =>
    if (← combatant.healthPercent) < percent then
      setCombatant target (← combatant.setHealth 0)
      report (.execute target)
      return true
    else return false

/-- The consequences of a combo whose damage has landed; whether the target was executed. -/
def comboConsequences (rules : Rules) (nested : List Effect → Context → Resolution Unit)
    (ctx : Context) (target : CombatantId) (combo : Combo) (dealt : Int) : Resolution Bool := do
  combo.apply.forM fun (status, stack) => leaveStatus rules target status stack
  combo.chainPercent.forM fun percent => do
    leap rules nested ctx target combo.element (← Signed.percentOf dealt percent)
  match combo.executeBelowPercent with
  | some percent => executeBelow target percent
  | none => return false

/-- What a combo brings about, if there is one; whether the target was executed. -/
def settleCombo (rules : Rules) (nested : List Effect → Context → Resolution Unit) (ctx : Context)
    (target : CombatantId) (combo : Option Combo) (dealt : Int) : Resolution Bool :=
  match combo with
  | some combo => comboConsequences rules nested ctx target combo dealt
  | none => return false

/-! ## The whole hit -/

/-- What follows when a hit with `amount` damage has landed; what became of the damage in the
end. -/
def aftermath (rules : Rules) (nested : List Effect → Context → Resolution Unit) (ctx : Context)
    (target : CombatantId) (hit : Hit) (combo : Option Combo) (amount : Int)
    (landed : DamageReport) : Resolution DamageReport := do
  let executed ← settleCombo rules nested ctx target combo amount
  onlyIf (!hit.onHit.isEmpty) do nested hit.onHit (← ctx.atTarget target)
  onlyIf combo.isNone do
    hit.element.signature.forM fun (status, stack) => leaveStatus rules target status stack
  let outcome := { landed with killed := landed.killed || executed }
  afterDamage rules nested ctx target outcome true
  return outcome

/-- Hits a combatant, if it is there and alive; what became of the damage. -/
def resolveHit (rules : Rules) (nested : List Effect → Context → Resolution Unit) (ctx : Context)
    (target : CombatantId) (hit : Hit) : Resolution (Option DamageReport) := do
  let before ← combat
  match (before.combatant? target).filter (·.isAlive) with
  | none => return none
  | some defender =>
    let (combo, amount) ← hit.withCombo rules.content.powers before ctx defender
    combo.forM (consume target defender)
    match ← dealDamage ctx.source target amount hit.element hit.piercing with
    | none => return none
    | some landed => return some (← aftermath rules nested ctx target hit combo amount landed)

end Resolution

end CardCombat
