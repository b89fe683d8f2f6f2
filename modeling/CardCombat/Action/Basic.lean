import CardCombat.Resolve.Dispatch

/-!
# Actions

What the player can be told when an action is not possible, and what all actions have in common:
they ask whether it is the player's turn to act, they change the scene of the run, and they end the
combat if one side is beaten.

An action that is rejected returns no run at all, so nothing of it can stay behind.
-/

namespace CardCombat

/-- What is wrong with a choice of cards. -/
inductive ChoiceError where
  | wrongNumber (min max got : Nat)
  | notCandidate (card : CardUid)
  | duplicate
  deriving Repr, DecidableEq

/-- Why an action is not possible. -/
inductive ActionError where
  | notInCombat
  | wrongPhase (phase : Phase)
  | locked
  | selectionPending
  | cardNotInHand (card : CardUid)
  | unknownCard (card : CardId)
  | unplayable (card : CardUid)
  | insufficientEnergy (needed available : Int)
  | noPendingSelection
  | invalidSelection (reason : ChoiceError)
  | abilityNotReady
  deriving Repr, DecidableEq

/-- Why an action was not carried out: it was rejected, or a rule could not be carried out. -/
inductive Failure (ε : Type) where
  | rejected (reason : ε)
  | fault (fault : Fault)
  deriving Repr, DecidableEq

def ChoiceError.message : ChoiceError → String
  | wrongNumber min max got =>
    "expected " ++ toString min ++ " to " ++ toString max ++ " cards, got " ++ toString got
  | notCandidate card => "card " ++ card.text ++ " is not a candidate"
  | duplicate => "duplicate card"

/-- The name of the error, for programs that tell errors apart. -/
def ActionError.name : ActionError → String
  | notInCombat => "NotInCombat"
  | wrongPhase .. => "WrongPhase"
  | locked => "Locked"
  | selectionPending => "SelectionPending"
  | cardNotInHand .. => "CardNotInHand"
  | unknownCard .. => "UnknownCard"
  | unplayable .. => "Unplayable"
  | insufficientEnergy .. => "InsufficientEnergy"
  | noPendingSelection => "NoPendingSelection"
  | invalidSelection .. => "InvalidSelection"
  | abilityNotReady => "AbilityNotReady"

def ActionError.message : ActionError → String
  | notInCombat => "no combat in progress"
  | wrongPhase phase => "action not allowed during " ++ phase.title
  | locked => "combat is locked"
  | selectionPending => "a card selection is pending"
  | cardNotInHand card => "card " ++ card.text ++ " is not in hand"
  | unknownCard card => "unknown card definition `" ++ card ++ "`"
  | unplayable card => "card " ++ card.text ++ " cannot be played"
  | insufficientEnergy needed available =>
    "not enough energy: need " ++ toString needed ++ ", have " ++ toString available
  | noPendingSelection => "no selection is pending"
  | invalidSelection reason => "invalid selection: " ++ reason.message
  | abilityNotReady => "hero ability is not ready"

instance {ε : Type} : MonadLift (Except Fault) (Except (Failure ε)) :=
  ⟨fun result => result.mapError .fault⟩

instance {ε : Type} : MonadLift (Except ε) (Except (Failure ε)) :=
  ⟨fun result => result.mapError .rejected⟩

namespace Combat

/-- Whether the player may act at all. -/
def checkTurn (combat : Combat) : Except ActionError Unit :=
  if combat.phase != .playerTurn then .error (.wrongPhase combat.phase)
  else if combat.locked then .error .locked
  else .ok ()

/-- Whether the player may act and no selection waits for an answer. -/
def checkReady (combat : Combat) : Except ActionError Unit := do
  combat.checkTurn
  if combat.pending.isSome then throw .selectionPending

end Combat

namespace Run

/-- The combat that goes on. -/
def currentCombat (run : Run) : Except ActionError Combat :=
  match run.combat with
  | some combat => .ok combat
  | none => .error .notInCombat

/-- The combat, if the player may act in it and no selection waits for an answer. -/
def readyCombat (run : Run) : Except ActionError Combat := do
  let combat ← run.currentCombat
  combat.checkReady
  return combat

/-- The run after a resolution; without a combat nothing can be resolved. -/
def resolve (run : Run) (resolution : Resolution Unit) : Except Fault Run :=
  match run.scene? with
  | none => return run
  | some scene => do
    let ((), scene) ← resolution.run scene
    return run.withScene scene

/-- The run after a combat that goes on has ended, if one side is beaten: the player's health is
that of the run again, and a victory is counted. -/
def conclude (run : Run) : Except Fault Run :=
  match run.combat with
  | none => return run
  | some combat =>
    if combat.phase.isTerminal then return run
    else
      match combat.endIfDecided with
      | (none, _) => return run
      | (some phase, combat) => do
        let combatsWon ← if phase == .victory then Unsigned.add 64 run.stats.combatsWon 1
          else pure run.stats.combatsWon
        return { run with
          combat := some combat, health := combat.player.health
          maxHealth := combat.player.maxHealth, stats := { run.stats with combatsWon } }

/-- Carries out a resolution and ends the combat if one side is beaten. -/
def advance (run : Run) (resolution : Resolution Unit) : Except Fault Run := do
  (← run.resolve resolution).conclude

/-- Leaves the combat; the phase in which it was left. A combat that was not over leaves the
player's health to the run. -/
def leaveCombat (run : Run) : Option Phase × Run :=
  match run.combat with
  | none => (none, run)
  | some combat =>
    if combat.phase.isTerminal then (some combat.phase, { run with combat := none })
    else
      (some combat.phase,
        { run with
          combat := none, health := combat.player.health, maxHealth := combat.player.maxHealth })

/-- The phase in which the combat has ended. -/
def outcome (run : Run) : Option Phase := (run.combat.map (·.phase)).filter (·.isTerminal)

end Run

end CardCombat
