import CardCombat.Resolve.Basic

/-!
# Triggers

When something happens to a combatant, the powers that it holds act in their order, and if it is
the player the relics of the run act after them. All of them are found before the first one acts.
-/

namespace CardCombat.Resolution

/-- The triggers of the player's relics. -/
def relicTriggers (rules : Rules) (relics : List RelicId) (occasion : Occasion) :
    List (List Effect) :=
  (rules.content.relicsOf relics).flatMap (·.triggersOn occasion)

/-- The effects of a trigger are carried out. -/
def act (nested : List Effect → Context → Resolution Unit) (occasion : Occasion)
    (effects : List Effect) (ctx : Context) : Resolution Unit := do
  record (.acted ctx.source occasion effects)
  nested effects ctx

/-- An occasion comes to a combatant: its triggers are carried out. -/
def react (rules : Rules) (nested : List Effect → Context → Resolution Unit) (owner : CombatantId)
    (occasion : Occasion) (cause : Option CombatantId) (ctx : Context) : Resolution Unit := do
  let scene ← get
  match scene.combat.combatant? owner with
  | none => return
  | some combatant =>
    let ofPowers := combatant.triggersOn rules.content.powers occasion
    let ofRelics := if owner.isPlayer then relicTriggers rules scene.relics occasion else []
    ofPowers.forM fun trigger => do
      act nested occasion trigger.effects
        { ← ctx.ofTrigger owner cause with stack := some trigger.stack }
    ofRelics.forM fun effects => do
      act nested occasion effects (← ctx.ofTrigger owner cause)

end CardCombat.Resolution
