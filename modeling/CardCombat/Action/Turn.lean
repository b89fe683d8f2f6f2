import CardCombat.Action.Basic

/-!
# Turns

What happens at the boundaries of turns. The player's turn ends with its triggers, the decay of
powers and the hand going away; then every enemy that lives acts once, in order; then the player's
next turn begins with new energy, new intents and new cards. As soon as one side is beaten nothing
more of it happens.
-/

namespace CardCombat

namespace Resolution

variable (rules : Rules)

/-! ## Powers -/

/-- Powers of a combatant decay; those with nothing left are reported. -/
def decay (id : CombatantId) (boundary : Boundary) : Resolution Unit := do
  match ← combatant? id with
  | none => return
  | some combatant =>
    let (ticks, combatant) ← combatant.decay rules.content.powers boundary
    setCombatant id combatant
    (ticks.filter (·.remaining.isNone)).forM fun tick => report (.powerRemoved id tick.power)

/-- A turn of silence passes for a combatant. -/
def passSilence (id : CombatantId) : Resolution Unit := do
  match ← combatant? id with
  | none => return
  | some combatant => setCombatant id { combatant with powers := combatant.powers.passSilence }

/-! ## The end of the player's turn -/

/-- Whether a card stays in the hand. Of a card without a definition only what was laid over it
counts. -/
def staysInHand (card : Card) : Bool :=
  match rules.content.cards.find? card.definition with
  | some definition => card.staysInHand definition
  | none => card.retained

def isEthereal (card : Card) : Bool :=
  (rules.content.cards.find? card.definition).any (card.isEthereal ·)

/-- A card leaves the hand at the end of a turn, unless it stays for this once. -/
def putAway (card : Card) : Resolution Unit := do
  let uid := card.uid
  if staysInHand rules card then
    let piles := (← combat).piles
    setPiles (piles.modify uid ({ · with retained := false }))
  else if isEthereal rules card then
    if (← moveTo uid .exhaustPile).isSome then report (.exhaust uid)
  else
    if (← moveTo uid .discardPile).isSome then report (.discard uid)

def closeTurn : Resolution Unit := do
  happen rules .player .turnEnd none {}
  decay rules .player .turnEnd
  passSilence .player
  (← combat).piles.hand.forM (putAway rules)

/-! ## The enemies' turn -/

/-- An enemy makes the move that it has declared, and remembers it. -/
def makeMove (id : CombatantId) (intent : Intent) : Resolution Unit := do
  report (.intent id intent.name)
  carryOut rules intent.effects
    { source := id, target := some .player, damagePenalty := intent.weakened }
  match ← combatant? id with
  | none => return
  | some combatant =>
    setCombatant id { combatant with enemy := combatant.enemy.map fun enemy =>
      { enemy with lastMove := some intent.moveIndex, intent := none } }

/-- The turn of one enemy. -/
def enemyTurn (id : CombatantId) : Resolution Unit := do
  (← combatant? id).forM fun combatant => setCombatant id { combatant with block := 0 }
  happen rules id .turnStart none { source := id }
  decay rules id .turnStart
  let combat ← combat
  if combat.isLivingEnemy id && combat.player.isAlive then
    ((combat.combatant? id).bind (·.intent)).forM (makeMove rules id)
    if (← Resolution.combat).isLivingEnemy id then
      happen rules id .turnEnd none { source := id }
      decay rules id .turnEnd
      passSilence id

/-- The turns of all enemies, as far as they live when their turn comes. -/
def enemiesTurn : Resolution Unit := do
  modifyCombat ({ · with phase := .enemyTurn })
  (← combat).livingEnemyIds.forM fun id => do
    let combat ← combat
    if !combat.isDecided && combat.isLivingEnemy id then enemyTurn rules id
  bury

/-! ## The beginning of the player's turn -/

/-- An enemy declares its next move. One whose template is unknown keeps the intent that it has. -/
def chooseIntent (id : CombatantId) : Resolution Unit := do
  match (← combatant? id).bind fun combatant => combatant.enemy.map (combatant, ·) with
  | none => return
  | some (combatant, enemy) =>
    match rules.content.enemies.find? enemy.template with
    | none => return
    | some template =>
      let intent := (← draw (template.nextMove enemy.lastMove)).bind template.intent?
      setCombatant id { combatant with enemy := some { enemy with intent } }
      intent.forM fun intent => report (.intent id intent.name)

/-- Gives the player the energy of a new turn. -/
def refresh : Resolution Unit := do
  let resources := (← combat).resources
  let energy ← Signed.add resources.maxEnergy resources.energyNextTurn
  modifyCombat fun combat => { combat with
    phase := .playerTurn, cardsPlayedThisTurn := 0
    resources := { resources with energy, energyNextTurn := 0, abilityUsedThisTurn := false } }

/-- The next turn is counted, and the block of the last one is gone. -/
def nextTurn : Resolution Unit := do
  let turn ← Unsigned.add 32 (← combat).turn 1
  modifyCombat fun combat =>
    { combat with turn, player := { combat.player with block := 0 } }

/-- A turn of the player begins. Before the first one nothing was counted and block stays. -/
def openTurn (first : Bool) : Resolution Unit := do
  onlyIf (!first) nextTurn
  refresh
  report (.turnStart (← combat).turn)
  (← combat).livingEnemyIds.forM (chooseIntent rules)
  drawCards rules rules.config.drawPerTurn
  happen rules .player .turnStart none {}
  decay rules .player .turnStart

/-! ## Sequences -/

/-- Carries something out unless one side is beaten. -/
def unlessDecided (resolution : Resolution Unit) : Resolution Unit := do
  if !(← combat).isDecided then resolution

/-- The first moments of a combat. -/
def openCombat : Resolution Unit := do
  happen rules .player .combatStart none {}
  unlessDecided (openTurn rules true)

/-- Everything from the end of one turn of the player to the beginning of the next. -/
def passTurn : Resolution Unit := do
  closeTurn rules
  unlessDecided (enemiesTurn rules)
  unlessDecided (openTurn rules false)

end Resolution

/-- Ends the player's turn. -/
def Rules.endTurn (rules : Rules) (run : Run) : Except (Failure ActionError) Run := do
  discard run.readyCombat
  run.advance (Resolution.passTurn rules)

end CardCombat
