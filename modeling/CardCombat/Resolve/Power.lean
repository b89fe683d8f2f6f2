import CardCombat.Resolve.Basic

/-!
# Giving and taking powers

The effects that give, take, move and silence powers. Powers are given to the living only.
-/

namespace CardCombat.Resolution

variable (rules : Rules)

/-! ## One combatant -/

/-- Gives a known power to a living combatant. -/
def givePower (target : CombatantId) (power : PowerId) (amount : Int) (duration : Option Int) :
    Resolution Unit := do
  match (← combatant? target).filter fun e => e.isAlive && rules.content.powers.contains power with
  | none => return
  | some before =>
    let (applied, combatant) ← before.applyPower rules.content.powers power amount duration
    setCombatant target combatant
    if applied.isSome then report (.powerApplied target power amount)
    else if before.powers.contains power then report (.powerRemoved target power)

/-- Reports what is left of a power of which stacks were taken. -/
def reportTaken (target : CombatantId) (power : PowerId) (taken : Int) :
    Option Int → Resolution Unit
  | none => report (.powerRemoved target power)
  | some left => if taken != 0 then report (.powerReduced target power left) else return

/-- Takes a power away, the whole of it or so many of its stacks as there are; how many those
were. -/
def takePower (target : CombatantId) (power : PowerId) (amount : Option Int) : Resolution Int := do
  match ← combatant? target with
  | none => return 0
  | some before =>
    match before.powers.get? power with
    | none => return 0
    | some held =>
      let taken := (amount.map (min · held.amount)).getD held.amount
      let (left, combatant) ←
        before.removePower rules.content.powers power (amount.map fun _ => taken)
      setCombatant target combatant
      reportTaken target power taken left
      return taken

/-! ## Effects -/

/-- What an amount that may be missing comes to. -/
def amount? (value : Option Value) (ctx : Context) : Resolution (Option Int) := do
  match value with
  | some value => return some (← Resolution.amount value ctx)
  | none => return none

def applyPower (power : PowerId) (amount : Value) (target : Aim) (duration : Option Int)
    (ctx : Context) : Resolution Unit := do
  let amount ← Resolution.amount amount ctx
  if amount != 0 then
    (← targets target ctx).forM fun id => givePower rules id power amount duration

def removePower (power : PowerId) (amount : Option Value) (target : Aim) (ctx : Context) :
    Resolution Unit := do
  let amount ← amount? amount ctx
  (← targets target ctx).forM fun id => discard (takePower rules id power amount)

/-- Moves stacks from the first combatant that one aim finds to everyone another one finds. -/
def transferPower (power : PowerId) (amount : Option Value) (giver receiver : Aim)
    (ctx : Context) : Resolution Unit := do
  let amount ← amount? amount ctx
  match ← targets giver ctx with
  | [] => return
  | owner :: _ =>
    match (← combatant? owner).bind (·.powers.get? power) with
    | none => return
    | some held =>
      let moved := amount.getD held.amount
      if 0 < moved then
        discard (takePower rules owner power (some moved))
        (← targets receiver ctx).forM fun id => givePower rules id power moved none

/-- The powers that can be stolen without being named: buffs that are at work. -/
def stealable (combatant : Combatant) : List PowerId :=
  (combatant.powers.filter fun power =>
    !power.isSilenced && decide (0 < power.amount) &&
      (rules.content.powers.find? power.id).any (·.kind == .buff)).map (·.id)

/-- The power that is stolen: the one that is named, or else one that is drawn. -/
def powerToSteal (power : Option PowerId) (combatant : Combatant) : Resolution (Option PowerId) :=
  match power with
  | some power => return some power
  | none => draw (Draw.choose (stealable rules combatant))

/-- Takes a power from everyone who is aimed at, and gives what was taken to whoever does it. A
power that is not named is drawn. -/
def stealPower (power : Option PowerId) (amount : Option Value) (target : Aim)
    (ctx : Context) : Resolution Unit := do
  let amount ← amount? amount ctx
  forTargets target ctx fun victim combatant => do
    match ← powerToSteal rules power combatant with
    | none => return
    | some power =>
      let taken ← takePower rules victim power amount
      if 0 < taken then givePower rules ctx.source power taken none

/-- Silences a power, or all powers, for at least so many turns. -/
def silencePower (power : Option PowerId) (turns : Nat) (target : Aim) (ctx : Context) :
    Resolution Unit := do
  if turns != 0 then
    forTargets target ctx fun id combatant => do
      let (silenced, powers) := combatant.powers.silence power turns
      setCombatant id { combatant with powers }
      silenced.forM fun power => report (.powerSilenced id power turns)

end CardCombat.Resolution
