import CardCombat.Action.Call

/-!
# Calls in place

The calls of `CardCombat.Action.Call` give a new run, so that one that is rejected has no way to
leave anything behind. Whoever keeps a single run and changes it in place has no such excuse: what
was written before the call gave up stays written, be it in the run or, in the midst of a
resolution, in its scene.

Here the calls are written that way. Every check stands where it is made, those among them that are
made once more after the first write.
-/

namespace CardCombat

/-- A call that changes the run where it is. It can give up at any moment, and what it has written
by then stays. -/
abbrev InPlace (ε : Type) := ExceptT ε (StateT Run (Except Fault))

namespace InPlace

variable {ε α : Type}

/-- Looks something up in the run, or gives up. -/
def look (find : Run → Except (Failure ε) α) : InPlace ε α := do
  match find (← get) with
  | .ok found => return found
  | .error (.rejected reason) => throw reason
  | .error (.fault cause) => throwThe Fault cause

/-- Puts another run in the place of the run. -/
def write (change : Run → Except Fault Run) : InPlace ε Unit := do
  set (← (change (← get) : Except Fault Run))

/-- Works on the scene of the run. What the work has changed is in the run afterwards, even if the
work was given up. -/
def draft (work : ExceptT ActionError Resolution Unit) : InPlace ActionError Unit := do
  let run ← get
  match run.scene? with
  | none => throw .notInCombat
  | some scene =>
    let (outcome, scene) ← (work.run.run scene : Except Fault _)
    set (run.withScene scene)
    match outcome with
    | .ok () => return
    | .error reason => throw reason

/-- Performs a call on a run: why it was rejected, if it was, and what has become of the run. -/
def perform (reason : ε → Rejection) (call : InPlace ε Unit) (run : Run) :
    Except Fault (Option Rejection × Run) := do
  let (outcome, run) ← call.run.run run
  match outcome with
  | .ok () => return (none, run)
  | .error error => return (some (reason error), run)

end InPlace

open InPlace

namespace Rules

variable (rules : Rules)

/-- Starts a combat. The deck is shuffled before anything happens in it. -/
def startCombatInPlace (enemies : List String) : InPlace ContentError Unit := do
  let templates ← look fun _ => (rules.enemyTemplates enemies : Except ContentError _)
  let combat ← look fun run => (rules.gather run templates : Except Fault _)
  let (drawPile, rng) := (rules.shuffledDeck (← get).deck).run (← get).rng
  modify ({ · with rng })
  modify ({ · with combat := some { combat with piles := { drawPile } } })
  write (·.resolve (Resolution.openCombat rules))
  write Run.conclude

/-- Plays a card of the hand. When the card is taken out of the hand it is looked for again. -/
def playCardInPlace (uid : CardUid) (target : Option CombatantId) :
    InPlace ActionError Unit := do
  let play ← look fun run => do rules.checkPlay (← run.readyCombat) uid
  draft do
    if ((← Resolution.combat).piles.takeFrom? .hand uid).isNone then throw (.cardNotInHand uid)
    else Resolution.play rules play target
  write Run.conclude

/-- Uses the hero's ability. -/
def useAbilityInPlace : InPlace ActionError Unit := do
  let resources := (← look fun run => run.readyCombat).resources
  match rules.ability? (← get) with
  | none => throw .abilityNotReady
  | some ability =>
    if resources.abilityUsedThisTurn || resources.abilityCharge < resources.abilityChargeRequired
    then throw .abilityNotReady
    else
      draft (Resolution.useAbility rules ability)
      write Run.conclude

/-- Answers a selection. When the selection is taken it is looked for again. -/
def answerSelectionInPlace (chosen : List CardUid) : InPlace ActionError Unit := do
  let combat ← look fun run => run.currentCombat
  look fun _ => combat.checkTurn
  match combat.pending with
  | none => throw .noPendingSelection
  | some selection =>
    match selection.check chosen with
    | .error reason => throw (.invalidSelection reason)
    | .ok () =>
      draft do
        match (← Resolution.combat).pending with
        | none => throw .noPendingSelection
        | some selection => Resolution.settleSelection rules selection chosen
      write Run.conclude

/-- Ends the player's turn. -/
def endTurnInPlace : InPlace ActionError Unit := do
  let _ ← look fun run => run.readyCombat
  write (·.resolve (Resolution.passTurn rules))
  write Run.conclude

/-- Performs a call in place: why it was rejected, if it was, and what has become of the run. -/
def attempt (run : Run) : Call → Except Fault (Option Rejection × Run)
  | .start enemies => InPlace.perform .content (rules.startCombatInPlace enemies) run
  | .play card target => InPlace.perform .action (rules.playCardInPlace card target) run
  | .ability => InPlace.perform .action rules.useAbilityInPlace run
  | .select cards => InPlace.perform .action (rules.answerSelectionInPlace cards) run
  | .endTurn => InPlace.perform .action rules.endTurnInPlace run

end Rules

end CardCombat
