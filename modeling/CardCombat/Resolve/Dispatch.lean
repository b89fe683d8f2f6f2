import CardCombat.Resolve.Attack
import CardCombat.Resolve.CardEffect
import CardCombat.Resolve.Control
import CardCombat.Resolve.Power
import CardCombat.Resolve.Replay
import CardCombat.Resolve.Resource
import CardCombat.Resolve.Vitality

/-!
# Carrying out effects

The levels of nesting put together. Effects can cause each other without end: a power may act on
what it causes, and a card may play itself again. What bounds a resolution is its depth. Every
nested effect is carried out in a context one level deeper than the effect that it is nested in,
and an effect in a context deeper than the rules allow is skipped. So from a context of depth `d`
there are `maxEffectDepth + 1 - d` levels, on that number a resolution recurs, and it ends for all
content.

`Resolution.within` leaves open what happens beyond the last level. The rules skip what is there;
that the limit was never reached can be said as: nothing depends on what happens beyond it.
-/

namespace CardCombat.Resolution

variable (rules : Rules)

/-- Carries out one effect, with its nested effects left to `nested`. -/
def dispatch (nested : List Effect → Context → Resolution Unit) (ctx : Context) :
    Effect → Resolution Unit
  | .damage amount target element piercing onHit =>
    damage rules nested amount target element piercing onHit ctx
  | .block amount target => block rules nested amount target ctx
  | .barrier amount target => barrier amount target ctx
  | .heal amount target overheal => heal amount target overheal ctx
  | .lifesteal amount target element percent =>
    lifesteal rules nested amount target element percent ctx
  | .destroyBlock target includeBarrier => destroyBlock target includeBarrier ctx
  | .maxHealth amount target => changeMaxHealth amount target ctx
  | .setHealth amount target => setHealth rules nested amount target ctx
  | .execute threshold target => execute rules nested threshold target ctx
  | .splash amount target element splashPercent =>
    splash rules nested amount target element splashPercent ctx
  | .recoil amount target element cost => recoil rules nested amount target element cost ctx
  | .counter amount target => applyPower rules "counter" amount target none ctx
  | .chain amount target element bounces falloffPercent =>
    chain rules nested amount target element bounces falloffPercent ctx
  | .weakenIntent amount target => weakenIntent amount target ctx
  | .mark amount target => applyPower rules "marked" amount target none ctx
  | .reflect amount target => applyPower rules "reflect" amount target none ctx
  | .amplify amount target => applyPower rules "amplify" amount target none ctx
  | .energy amount operation => energy amount operation ctx
  | .gold amount operation => gold amount operation ctx
  | .energyNextTurn amount => energyNextTurn amount ctx
  | .draw amount => do drawCards rules (← count amount ctx)
  | .discard amount target playerChoice => discardCards rules amount target playerChoice ctx
  | .exhaust amount target => exhaustCards rules amount target ctx
  | .banish amount target playerChoice => banishCards rules amount target playerChoice ctx
  | .addCard cardId destination count upgraded position =>
    addCards rules cardId destination count upgraded position ctx
  | .shuffle includeDiscard => shuffle includeDiscard
  | .retain target => retain rules target ctx
  | .copyCard target destination count => copyCards rules target destination count ctx
  | .putOnDeck target position => putOnDeck rules target position ctx
  | .modifyCost amount target => modifyCost rules amount target ctx
  | .replayCard target times => replayCards rules nested target times ctx
  | .playTopCard count => playTopCards rules nested count ctx
  | .discover theme choices destination upgraded =>
    discover rules theme choices destination upgraded
  | .scry amount => scry amount ctx
  | .tutor filter destination playerChoice => tutor rules filter destination playerChoice ctx
  | .upgrade target => upgrade rules target ctx
  | .transform target theme => transform rules target theme ctx
  | .mill amount => mill amount ctx
  | .createRandomCard theme destination count free upgraded =>
    createRandomCards rules theme destination count free upgraded ctx
  | .setCardFlag target flag value => setCardFlag rules target flag value ctx
  | .addStatusCard cardId destination count => addStatusCards rules cardId destination count ctx
  | .applyPower power amount target duration => applyPower rules power amount target duration ctx
  | .removePower power amount target => removePower rules power amount target ctx
  | .transferPower power amount giver receiver =>
    transferPower rules power amount giver receiver ctx
  | .stealPower power amount target => stealPower rules power amount target ctx
  | .silencePower power turns target => silencePower power turns target ctx
  | .conditional condition yes no => conditional nested condition yes no ctx
  | .repeated times effects => repeated nested times effects ctx
  | .randomChoice choices => randomChoice nested choices ctx
  | .sequence effects => sequence nested effects ctx
  | .forEach target effects => forEach rules nested target effects ctx

/-- Carries out effects one after another with so many levels left. What is nested deeper goes
`beyond`. -/
def within (beyond : List Effect → Context → Resolution Unit) :
    Nat → List Effect → Context → Resolution Unit
  | 0 => beyond
  | levels + 1 => fun effects ctx => effects.forM (dispatch rules (within beyond levels) ctx)

/-- Levels beyond levels are levels. -/
theorem within_within (beyond : List Effect → Context → Resolution Unit) (m n : Nat) :
    within rules (within rules beyond m) n = within rules beyond (n + m) := by
  induction n with
  | zero => simp [within]
  | succ n ih => rw [Nat.succ_add]; simp only [within, ih]

/-- Does nothing: what lies beyond the last level is skipped. -/
def skip (_ : List Effect) (_ : Context) : Resolution Unit := return

/-- How many levels there are from a depth on. -/
def levels (depth : Nat) : Nat := rules.config.maxEffectDepth + 1 - depth

/-- Carries out effects one after another. -/
def carryOut (effects : List Effect) (ctx : Context) : Resolution Unit :=
  within rules skip (levels rules ctx.depth) effects ctx

/-- An occasion comes to a combatant. -/
def happen (owner : CombatantId) (occasion : Occasion) (cause : Option CombatantId)
    (ctx : Context) : Resolution Unit :=
  react rules (carryOut rules) owner occasion cause ctx

end CardCombat.Resolution
