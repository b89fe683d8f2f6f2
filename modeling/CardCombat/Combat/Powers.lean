import CardCombat.Combat.Combatant

/-!
# Powers at work

How the powers of a combatant are joined, lowered, modified by and triggered, each by the
definitions of a catalog. A power whose name the catalog does not know is never given to anyone, and
if it is held nevertheless it neither modifies nor acts nor decays.
-/

namespace CardCombat

/-- A trigger that has to be carried out: the power, its stacks and the effects. -/
structure Triggered where
  power : PowerId
  stack : Int
  effects : List Effect

/-- One power that decayed, with what is left of its stack if that is positive. -/
structure Decayed where
  power : PowerId
  remaining : Option Int
  deriving Repr, DecidableEq

namespace Stacking

/-- The longer of two durations, of which either may be missing. -/
def joinDuration : Option Int → Option Int → Option Int
  | some a, some b => some (max a b)
  | a, b => a <|> b

/-- The stack and duration after a power is given to someone who may hold it. -/
def join (stacking : Stacking) (held : Option Power) (amount : Int) (duration : Option Int) :
    Except Fault (Int × Option Int) :=
  match held with
  | none => return (amount, duration)
  | some held =>
    match stacking with
    | .intensity => return (← Signed.add held.amount amount, held.duration)
    | .duration => return (max held.amount amount, held.duration)
    | .both => return (← Signed.add held.amount amount, joinDuration held.duration duration)

end Stacking

namespace Combatant

variable (powers : Catalog PowerDefinition)

/-! ## Stacks -/

/-- Gives a power. The new stack, or nothing if the power is unknown or went because its stack is
not positive. A silenced power stays silenced. -/
def applyPower (combatant : Combatant) (id : PowerId) (amount : Int) (duration : Option Int) :
    Except Fault (Option Int × Combatant) :=
  match powers.find? id with
  | none => return (none, combatant)
  | some definition => do
    let held := combatant.powers.get? id
    let (amount, duration) ← definition.stacking.join held amount duration
    if amount ≤ 0 && definition.removeAtZero then
      return (none, { combatant with powers := combatant.powers.remove id })
    else
      let silencedTurns := (held.map (·.silencedTurns)).getD 0
      let given : Power := { id, amount, duration, silencedTurns }
      return (some amount, { combatant with powers := combatant.powers.insert given })

/-- Takes `amount` stacks of a power away, or the whole power. What is left of the stack, or nothing
if the power is not held or went. -/
def removePower (combatant : Combatant) (id : PowerId) (amount : Option Int) :
    Except Fault (Option Int × Combatant) :=
  match amount with
  | none => return (none, { combatant with powers := combatant.powers.remove id })
  | some amount =>
    match combatant.powers.get? id with
    | none => return (none, combatant)
    | some held => do
      let left ← Signed.sub held.amount amount
      if left ≤ 0 && (powers.find? id).any (·.removeAtZero) then
        return (none, { combatant with powers := combatant.powers.remove id })
      else
        let powers := combatant.powers.modify id ({ · with amount := left })
        return (some left, { combatant with powers })

/-! ## Modifiers -/

/-- The stacks and modifiers of the powers that are not silenced. -/
def workingModifiers (combatant : Combatant) : List (Int × Modifiers) :=
  (combatant.powers.filter (!·.isSilenced)).filterMap fun power =>
    (powers.find? power.id).map fun definition => (power.amount, definition.modifiers)

/-- A percentage more of an amount, rounded down and not negative. -/
def withPercent (amount percent : Int) : Except Fault Int := do
  let product ← Signed.mul amount (← Signed.add 100 percent)
  return max (product / 100) 0

/-- The sum of the flat parts of modifiers, each times its stacks. -/
def flatSum (modifiers : List (Int × Modifier)) : Except Fault Int :=
  modifiers.foldlM (fun sum m => do Signed.add sum (← Signed.mul m.2.flat m.1)) 0

/-- An amount with a percentage of a modifier, if it has one and stacks to back it. -/
def scaleBy (amount : Int) (m : Int × Modifier) : Except Fault Int :=
  if m.2.percent ≠ 0 ∧ 0 < m.1 then withPercent amount m.2.percent else return amount

/-- An amount under modifiers: first all flat parts together, then the percentages in order. -/
def underModifiers (amount : Int) (modifiers : List (Int × Modifier)) : Except Fault Int := do
  let amount := max (← Signed.add amount (← flatSum modifiers)) 0
  modifiers.foldlM scaleBy amount

/-- The damage of a hit that the combatant deals. -/
def damageDealt (combatant : Combatant) (amount : Int) : Except Fault Int :=
  underModifiers amount ((combatant.workingModifiers powers).map fun m => (m.1, m.2.outgoing))

/-- The damage of a hit that the combatant takes. -/
def damageTaken (combatant : Combatant) (amount : Int) : Except Fault Int :=
  underModifiers amount ((combatant.workingModifiers powers).map fun m => (m.1, m.2.incoming))

/-- The block that the combatant gives. -/
def blockGiven (combatant : Combatant) (amount : Int) : Except Fault Int :=
  underModifiers amount ((combatant.workingModifiers powers).map fun m => (m.1, m.2.block))

/-! ## Triggers -/

/-- The triggers of an occasion, in the order of the powers. -/
def triggersOn (combatant : Combatant) (occasion : Occasion) : List Triggered :=
  (combatant.powers.filter (!·.isSilenced)).flatMap fun power =>
    match powers.find? power.id with
    | none => []
    | some definition =>
      (definition.triggersOn occasion).map fun effects => ⟨definition.id, power.amount, effects⟩

/-! ## Decay -/

/-- How a power decays at a boundary, if it does. -/
def decayOf? (boundary : Boundary) (power : Power) : Option Decay :=
  ((powers.find? power.id).bind (·.decay)).filter (·.boundary == boundary)

/-- Lowers a power that decays at a boundary, with its tick. -/
def decayPower (boundary : Boundary) (power : Power) : Except Fault (Power × Option Decayed) :=
  match decayOf? powers boundary power with
  | none => return (power, none)
  | some decay => do
    let amount ← if decay.removeAll then pure 0 else Signed.sub power.amount 1
    return ({ power with amount },
      some { power := power.id, remaining := if 0 < amount then some amount else none })

/-- Lowers all powers that decay at a boundary and takes out those with nothing left; one tick for
each of them. -/
def decay (combatant : Combatant) (boundary : Boundary) :
    Except Fault (List Decayed × Combatant) := do
  let lowered ← combatant.powers.mapM (decayPower powers boundary)
  let ticks := lowered.filterMap (·.2)
  let expired := ticks.filter (·.remaining.isNone)
  return (ticks,
    { combatant with powers := expired.foldl (·.remove ·.power) (lowered.map (·.1)) })

end Combatant

end CardCombat
