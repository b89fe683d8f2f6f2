import CardCombat.Proofs.Content.Reference
import CardCombat.Proofs.Json.Records
import CardCombat.Run

/-!
# Numbers in the ranges of their quantities

Every number of a run is a quantity of some range: amounts, costs and stacks are signed, turns and
charges are unsigned with 32 binary digits, numbers of cards, counts and totals with 64. What is
said here holds of everything that is kept in such ranges; it is the condition under which a written
form is read back.
-/

namespace CardCombat

def CombatantId.Fits (id : CombatantId) : Prop := Unsigned.Fits 32 id.number

instance (id : CombatantId) : Decidable id.Fits := inferInstanceAs (Decidable (Unsigned.Fits _ _))

def CardUid.Fits (uid : CardUid) : Prop := Unsigned.Fits 64 uid.number

instance (uid : CardUid) : Decidable uid.Fits := inferInstanceAs (Decidable (Unsigned.Fits _ _))

/-! ## Amounts, aims, conditions -/

/-- An optional quantity. -/
def Signed.OptionFits (value : Option Int) : Prop := ∀ n ∈ value, Signed.Fits n

instance (value : Option Int) : Decidable (Signed.OptionFits value) :=
  inferInstanceAs (Decidable (∀ n ∈ value, Signed.Fits n))

/-- An optional unsigned quantity. -/
def Unsigned.OptionFits (bits : Nat) (value : Option Nat) : Prop :=
  ∀ n ∈ value, Unsigned.Fits bits n

instance (bits : Nat) (value : Option Nat) : Decidable (Unsigned.OptionFits bits value) :=
  inferInstanceAs (Decidable (∀ n ∈ value, Unsigned.Fits bits n))

def Value.Fits : Value → Prop
  | .fixed amount => Signed.Fits amount
  | .range min max => Signed.Fits min ∧ Signed.Fits max
  | .scaled base _ _ max => Signed.Fits base ∧ Signed.OptionFits max
  | .powerAmount => True

def Value.OptionFits (value : Option Value) : Prop := ∀ amount ∈ value, amount.Fits

mutual

def CardAim.Fits : CardAim → Prop
  | .filtered filter => CardFilter.Fits filter
  | _ => True

def CardFilter.Fits : CardFilter → Prop
  | .mk base count _ _ maxCost =>
    CardAim.Fits base ∧ Unsigned.OptionFits 64 count ∧ Signed.OptionFits maxCost

end

def Subject.Fits : Subject → Prop
  | .combatant _ => True
  | .card target => target.Fits

inductive Condition.Fits : Condition → Prop
  | health {target form op value} (h : Signed.Fits value) : Fits (.health target form op value)
  | resource {quantity op value} (h : Signed.Fits value) : Fits (.resource quantity op value)
  | pileCount {pile op value} (h : Signed.Fits value) : Fits (.pileCount pile op value)
  | turn {op value} (h : Signed.Fits value) : Fits (.turn op value)
  | enemyCount {op value} (h : Signed.Fits value) : Fits (.enemyCount op value)
  | hasPower {target power min} (h : Signed.Fits min) : Fits (.hasPower target power min)
  | and {conditions} (h : ∀ condition ∈ conditions, Fits condition) : Fits (.and conditions)
  | or {conditions} (h : ∀ condition ∈ conditions, Fits condition) : Fits (.or conditions)
  | not {condition} (h : Fits condition) : Fits (.not condition)

/-! ## Effects -/

namespace Effect

/-- The numbers that an effect says itself fit. -/
def NumbersFit : Effect → Prop
  | damage amount _ _ _ _ | block amount _ | barrier amount _ | heal amount _ _
  | maxHealth amount _ | setHealth amount _ | counter amount _ | weakenIntent amount _
  | mark amount _ | reflect amount _ | amplify amount _ | energy amount _ | gold amount _
  | energyNextTurn amount | draw amount | addCard _ _ amount _ _ | playTopCard amount
  | scry amount | mill amount | createRandomCard _ _ amount _ _ | addStatusCard _ _ amount
  | repeated amount _ => amount.Fits
  | lifesteal amount _ _ percent | splash amount _ _ percent =>
    amount.Fits ∧ Signed.Fits percent
  | execute threshold _ => Signed.Fits threshold
  | recoil amount _ _ cost => amount.Fits ∧ cost.Fits
  | chain amount _ _ bounces falloffPercent =>
    amount.Fits ∧ Unsigned.Fits 32 bounces ∧ Signed.Fits falloffPercent
  | discard amount target _ | exhaust amount target | banish amount target _
  | copyCard target _ amount | modifyCost amount target | replayCard target amount =>
    amount.Fits ∧ target.Fits
  | retain target | putOnDeck target _ | upgrade target | transform target _
  | setCardFlag target _ _ => target.Fits
  | discover _ choices _ _ => Unsigned.OptionFits 64 choices
  | tutor filter _ _ => ∀ inner ∈ filter, inner.Fits
  | applyPower _ amount _ duration => amount.Fits ∧ Signed.OptionFits duration
  | removePower _ amount _ | transferPower _ amount _ _ | stealPower _ amount _ =>
    Value.OptionFits amount
  | silencePower _ turns _ => Unsigned.Fits 32 turns
  | conditional condition _ _ => condition.Fits
  | forEach target _ => target.Fits
  | destroyBlock .. | shuffle _ | randomChoice _ | sequence _ => True

/-- The numbers of an effect and of all effects inside it fit. -/
inductive Fits : Effect → Prop
  | mk {effect} (own : effect.NumbersFit) (inside : ∀ inner, Inside inner effect → Fits inner) :
      Fits effect

end Effect

/-! ## Events -/

def Event.Fits : Event → Prop
  | .damage target amount blocked _ => target.Fits ∧ Signed.Fits amount ∧ Signed.Fits blocked
  | .block target amount | .barrier target amount | .heal target amount
  | .destroyBlock target amount | .maxHealth target amount | .setHealth target amount
  | .powerApplied target _ amount | .powerReduced target _ amount
  | .intentWeakened target amount => target.Fits ∧ Signed.Fits amount
  | .execute target | .death target | .combo target _ | .powerRemoved target _
  | .intent target _ => target.Fits
  | .powerSilenced target _ turns => target.Fits ∧ Unsigned.Fits 32 turns
  | .energy delta value | .gold delta value => Signed.Fits delta ∧ Signed.Fits value
  | .energyNextTurn amount => Signed.Fits amount
  | .draw count | .shuffle count | .selectionRequested _ count => Unsigned.Fits 64 count
  | .discard card | .exhaust card | .banish card | .addCard card _ _ | .retain card
  | .putOnDeck card | .upgrade card | .transform card _ | .mill card | .cardFlag card _ _
  | .replay card => card.Fits
  | .costChange card delta => card.Fits ∧ Signed.Fits delta
  | .turnStart turn => Unsigned.Fits 32 turn
  | .heroAbility => True

/-! ## Runs -/

structure Card.Fits (card : Card) : Prop where
  uid : card.uid.Fits
  costModifier : Signed.Fits card.costModifier

instance (card : Card) : Decidable card.Fits :=
  decidable_of_iff (card.uid.Fits ∧ Signed.Fits card.costModifier)
    ⟨fun h => ⟨h.1, h.2⟩, fun h => ⟨h.uid, h.costModifier⟩⟩

structure Piles.Fits (piles : Piles) : Prop where
  hand : ∀ card ∈ piles.hand, card.Fits
  drawPile : ∀ card ∈ piles.drawPile, card.Fits
  discardPile : ∀ card ∈ piles.discardPile, card.Fits
  exhaustPile : ∀ card ∈ piles.exhaustPile, card.Fits

structure Power.Fits (power : Power) : Prop where
  amount : Signed.Fits power.amount
  duration : Signed.OptionFits power.duration
  silencedTurns : Unsigned.Fits 32 power.silencedTurns

structure Intent.Fits (intent : Intent) : Prop where
  moveIndex : Unsigned.Fits 64 intent.moveIndex
  effects : ∀ effect ∈ intent.effects, effect.Fits
  weakened : Signed.Fits intent.weakened

structure EnemyRole.Fits (role : EnemyRole) : Prop where
  intent : ∀ intent ∈ role.intent, intent.Fits
  lastMove : Unsigned.OptionFits 64 role.lastMove

structure Combatant.Fits (combatant : Combatant) : Prop where
  id : combatant.id.Fits
  health : Signed.Fits combatant.health
  maxHealth : Signed.Fits combatant.maxHealth
  block : Signed.Fits combatant.block
  barrier : Signed.Fits combatant.barrier
  powers : ∀ power ∈ combatant.powers, power.Fits
  enemy : ∀ role ∈ combatant.enemy, role.Fits

structure Resources.Fits (resources : Resources) : Prop where
  energy : Signed.Fits resources.energy
  maxEnergy : Signed.Fits resources.maxEnergy
  energyNextTurn : Signed.Fits resources.energyNextTurn
  abilityCharge : Unsigned.Fits 32 resources.abilityCharge
  abilityChargeRequired : Unsigned.Fits 32 resources.abilityChargeRequired

structure Selection.Fits (selection : Selection) : Prop where
  candidates : ∀ card ∈ selection.candidates, card.Fits
  min : Unsigned.Fits 64 selection.min
  max : Unsigned.Fits 64 selection.max

structure Combat.Fits (combat : Combat) : Prop where
  turn : Unsigned.Fits 32 combat.turn
  player : combat.player.Fits
  resources : combat.resources.Fits
  enemies : ∀ enemy ∈ combat.enemies, enemy.Fits
  piles : combat.piles.Fits
  cardsPlayedThisTurn : Unsigned.Fits 32 combat.cardsPlayedThisTurn
  lastPlayed : ∀ card ∈ combat.lastPlayed, card.Fits
  inPlay : ∀ entry ∈ combat.inPlay, entry.card.Fits
  pending : ∀ selection ∈ combat.pending, selection.Fits
  events : ∀ event ∈ combat.events.toList, event.Fits
  nextEnemyId : Unsigned.Fits 32 combat.nextEnemyId
  nextCardUid : Unsigned.Fits 64 combat.nextCardUid

structure Stats.Fits (stats : Stats) : Prop where
  damageDealt : Unsigned.Fits 64 stats.damageDealt
  damageTaken : Unsigned.Fits 64 stats.damageTaken
  cardsPlayed : Unsigned.Fits 64 stats.cardsPlayed
  enemiesKilled : Unsigned.Fits 64 stats.enemiesKilled
  goldEarned : Unsigned.Fits 64 stats.goldEarned
  combatsWon : Unsigned.Fits 64 stats.combatsWon

/-- Every number of a run is in the range of its quantity, and its generator is at a place of its
stream. -/
structure Run.Fits (run : Run) : Prop where
  health : Signed.Fits run.health
  maxHealth : Signed.Fits run.maxHealth
  gold : Signed.Fits run.gold
  deck : ∀ card ∈ run.deck, card.Fits
  floor : Unsigned.Fits 32 run.floor
  stats : run.stats.Fits
  combat : ∀ combat ∈ run.combat, combat.Fits
  rng : run.rng.position < Keystream.period

end CardCombat
