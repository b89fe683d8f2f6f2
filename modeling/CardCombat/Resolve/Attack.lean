import CardCombat.Resolve.Hit

/-!
# Attacks

The effects that hit somebody: plain damage, damage that heals, splashes, recoils or leaps on, and
the weakening of an intent to hit.
-/

namespace CardCombat.Resolution

variable (rules : Rules) (nested : List Effect → Context → Resolution Unit)

/-- Hits everyone who is aimed at. -/
def damage (amount : Value) (target : Aim) (element : Element) (piercing : Bool)
    (onHit : List Effect) (ctx : Context) : Resolution Unit := do
  let base ← Resolution.amount amount ctx
  (← targets target ctx).forM fun id => do
    discard (resolveHit rules nested ctx id { base, element, piercing, onHit })

/-- Hits combatants one after another; the health that they have lost together. -/
def drain (ctx : Context) (hit : Hit) : List CombatantId → Int → Resolution Int
  | [], drained => return drained
  | id :: ids, drained => do
    match ← resolveHit rules nested ctx id hit with
    | some outcome => drain ctx hit ids (← Signed.add drained outcome.healthLost)
    | none => drain ctx hit ids drained

/-- Hits everyone who is aimed at and heals by a share of the health that was lost. -/
def lifesteal (amount : Value) (target : Aim) (element : Element) (percent : Int)
    (ctx : Context) : Resolution Unit := do
  let base ← Resolution.amount amount ctx
  let drained ← drain rules nested ctx { base, element } (← targets target ctx) 0
  let healing ← Signed.percentOf drained percent
  match ← combatant? ctx.source with
  | none => return
  | some combatant =>
    let (healed, combatant) ← combatant.heal healing false
    setCombatant ctx.source combatant
    if 0 < healed then report (.heal ctx.source healed)

/-- Hits a combatant, and with a share of the amount every other enemy that was alive before. -/
def splash (amount : Value) (target : Aim) (element : Element) (splashPercent : Int)
    (ctx : Context) : Resolution Unit := do
  let base ← Resolution.amount amount ctx
  match ← targets target ctx with
  | [] => return
  | primary :: _ =>
    let others := (← combat).livingEnemyIds.filter (· != primary)
    discard (resolveHit rules nested ctx primary { base, element })
    let splashed ← Signed.percentOf base splashPercent
    others.forM fun id => do
      discard (resolveHit rules nested ctx id { base := splashed, element })

/-- Hits combatants one after another; whether any of them was there to be hit. -/
def strikeAll (ctx : Context) (hit : Hit) : List CombatantId → Resolution Bool
  | [] => return false
  | id :: ids => do
    let struck ← resolveHit rules nested ctx id hit
    let later ← strikeAll ctx hit ids
    return struck.isSome || later

/-- Hits everyone who is aimed at; if anyone was hit, whoever did it takes damage that pierces. -/
def recoil (amount : Value) (target : Aim) (element : Element) (cost : Value)
    (ctx : Context) : Resolution Unit := do
  let base ← Resolution.amount amount ctx
  let cost := max (← Resolution.amount cost ctx) 0
  let struck ← strikeAll rules nested ctx { base, element } (← targets target ctx)
  if struck && cost != 0 && (← combat).isAlive ctx.source then
    hurt rules nested ctx ctx.source cost .physical true

/-- Leaps from one enemy to another at most so many times, each time with a share of the amount,
until the amount is used up or no other enemy is alive. -/
def bounce (ctx : Context) (element : Element) (falloffPercent : Int) :
    Nat → CombatantId → Int → Resolution Unit
  | 0, _, _ => return
  | bounces + 1, current, base => do
    let base ← Signed.percentOf base falloffPercent
    if base ≤ 0 then return
    match ← draw (Draw.choose ((← combat).livingEnemyIds.filter (· != current))) with
    | none => return
    | some next =>
      discard (resolveHit rules nested ctx next { base, element })
      bounce ctx element falloffPercent bounces next base

/-- Hits a combatant and leaps on from there. -/
def chain (amount : Value) (target : Aim) (element : Element) (bounces : Nat)
    (falloffPercent : Int) (ctx : Context) : Resolution Unit := do
  let base ← Resolution.amount amount ctx
  match ← targets target ctx with
  | [] => return
  | first :: _ =>
    discard (resolveHit rules nested ctx first { base, element })
    bounce rules nested ctx element falloffPercent bounces first base

/-- Lowers the hits of the moves that enemies intend. -/
def weakenIntent (amount : Value) (target : Aim) (ctx : Context) : Resolution Unit := do
  let amount ← Resolution.amount amount ctx
  if 0 < amount then
    forTargets target ctx fun id combatant => do
      match combatant.enemy, combatant.intent with
      | some enemy, some intent =>
        let weakened ← Signed.add intent.weakened amount
        let intent := { intent with weakened }
        setCombatant id { combatant with enemy := some { enemy with intent := some intent } }
        report (.intentWeakened id amount)
      | _, _ => return

end CardCombat.Resolution
