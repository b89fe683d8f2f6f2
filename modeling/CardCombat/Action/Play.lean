import CardCombat.Action.Basic

/-!
# Playing cards and using the ability

A card of the hand can be played if its definition is known, it is not unplayable and there is
enough energy. Its effects are carried out while it is in play, then the triggers of the play act,
and only then the card goes where it has to go. Every card that is played charges the hero's
ability, up to what the ability requires.
-/

namespace CardCombat

/-- A card that is about to be played. -/
structure Play where
  card : Card
  definition : CardDefinition
  /-- The energy that is spent on it. -/
  cost : Int

/-- The energy that counts for the effects of a card which takes all of it. -/
def Play.xCost (play : Play) : Int :=
  match play.definition.costWhen play.card.upgraded with
  | .x => play.cost
  | .fixed _ => 0

namespace Resolution

/-- Spends energy. -/
def payEnergy (cost : Int) : Resolution Unit := do
  if 0 < cost then
    let resources := (← combat).resources
    let energy ← Signed.sub resources.energy cost
    setResources { resources with energy }
    report (.energy (← Signed.neg cost) energy)

/-- A card is in play and counts as played. -/
def enterPlay (card : Card) : Resolution Unit := do
  let scene ← get
  let cardsPlayedThisTurn ← Unsigned.add 32 scene.combat.cardsPlayedThisTurn 1
  let cardsPlayed ← Unsigned.add 64 scene.stats.cardsPlayed 1
  set { scene with
    combat := { scene.combat.pushInPlay card with cardsPlayedThisTurn }
    stats := { scene.stats with cardsPlayed } }

/-- The play of a card charges the hero's ability. -/
def charge (rules : Rules) : Resolution Unit := do
  let resources := (← combat).resources
  let charged ← Unsigned.add 32 resources.abilityCharge rules.config.chargePerCard
  setResources { resources with abilityCharge := min charged resources.abilityChargeRequired }

/-- Plays a card out of the hand. -/
def play (rules : Rules) (play : Play) (target : Option CombatantId) : Resolution Unit := do
  let uid := play.card.uid
  match (← combat).piles.takeFrom? .hand uid with
  | none => return
  | some (card, piles) =>
    setPiles piles
    payEnergy play.cost
    enterPlay card
    let ctx : Context := { card := some uid, target, xCost := play.xCost }
    carryOut rules (play.definition.effectsWhen card.upgraded) ctx
    happen rules .player .cardPlayed none ctx
    (Occasion.ofTheme? play.definition.theme).forM fun occasion =>
      happen rules .player occasion none ctx
    endPlay rules uid
    modifyCombat ({ · with lastPlayed := some card })
    charge rules

/-- Uses the hero's ability. -/
def useAbility (rules : Rules) (ability : HeroAbility) : Resolution Unit := do
  let resources := (← combat).resources
  setResources { resources with abilityCharge := 0, abilityUsedThisTurn := true }
  report .heroAbility
  carryOut rules ability.effects {}

end Resolution

namespace Rules

/-- Whether a card can be paid for and played, with the energy that there is. -/
def isPlayable (rules : Rules) (combat : Combat) (card : Card) : Except Fault Bool :=
  match rules.content.cards.find? card.definition with
  | none => return false
  | some definition =>
    if card.cannotBePlayed definition then return false
    else do
      let energy := combat.resources.energy
      return (← card.costToPlay definition energy) ≤ energy

/-- The cards of the hand that can be played now. -/
def playableCards (rules : Rules) (run : Run) : Except Fault (List CardUid) :=
  match run.readyCombat with
  | .error _ => return []
  | .ok combat => do
    return (← combat.piles.hand.filterM (rules.isPlayable combat)).map (·.uid)

/-- The play of a card of the hand, or why it cannot be played. -/
def checkPlay (rules : Rules) (combat : Combat) (uid : CardUid) :
    Except (Failure ActionError) Play := do
  match combat.piles.hand.find? (·.uid == uid) with
  | none => throw (.rejected (.cardNotInHand uid))
  | some card =>
    match rules.content.cards.find? card.definition with
    | none => throw (.rejected (.unknownCard card.definition))
    | some definition =>
      if card.cannotBePlayed definition then throw (.rejected (.unplayable uid))
      let available := combat.resources.energy
      let cost ← card.costToPlay definition available
      if available < cost then throw (.rejected (.insufficientEnergy cost available))
      return { card, definition, cost }

/-- Plays a card of the hand, aimed at a combatant or at nobody. -/
def playCard (rules : Rules) (run : Run) (uid : CardUid) (target : Option CombatantId) :
    Except (Failure ActionError) Run := do
  let combat ← run.readyCombat
  let play ← rules.checkPlay combat uid
  run.advance (Resolution.play rules play target)

/-- The ability of the hero of a run. -/
def ability? (rules : Rules) (run : Run) : Option HeroAbility :=
  (rules.content.heroes.find? run.hero).bind (·.ability)

/-- Uses the hero's ability, if it is charged and was not used in this turn. -/
def useAbility (rules : Rules) (run : Run) : Except (Failure ActionError) Run := do
  let resources := (← run.readyCombat).resources
  match rules.ability? run with
  | none => throw (.rejected .abilityNotReady)
  | some ability =>
    if resources.abilityUsedThisTurn || resources.abilityCharge < resources.abilityChargeRequired
    then throw (.rejected .abilityNotReady)
    run.advance (Resolution.useAbility rules ability)

end Rules

end CardCombat
