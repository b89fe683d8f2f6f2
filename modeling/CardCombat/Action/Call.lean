import CardCombat.Action.Play
import CardCombat.Action.Selection
import CardCombat.Action.Start

/-!
# Calls

Everything that can be asked of a run, as a value. Performing a call tells whether it was accepted
and gives the run after it; after a call that was rejected that is the run before it.
-/

namespace CardCombat

/-- Something that is asked of a run. -/
inductive Call where
  | start (enemies : List String)
  | play (card : CardUid) (target : Option CombatantId)
  | ability
  | select (cards : List CardUid)
  | endTurn
  deriving Repr, DecidableEq

/-- Why a call was rejected. -/
inductive Rejection where
  | content (error : ContentError)
  | action (error : ActionError)
  deriving Repr, DecidableEq

/-- The answer to a call: the run after it, or why it was rejected. -/
def Failure.reply {ε : Type} (reason : ε → Rejection) (run : Run) :
    Except (Failure ε) Run → Except Fault (Option Rejection × Run)
  | .ok run => .ok (none, run)
  | .error (.rejected error) => .ok (some (reason error), run)
  | .error (.fault cause) => .error cause

namespace Rules

/-- Performs a call: why it was rejected, if it was, and the run after it. -/
def perform (rules : Rules) (run : Run) : Call → Except Fault (Option Rejection × Run)
  | .start enemies => Failure.reply .content run (rules.startCombat run enemies)
  | .play card target => Failure.reply .action run (rules.playCard run card target)
  | .ability => Failure.reply .action run (rules.useAbility run)
  | .select cards => Failure.reply .action run (rules.answerSelection run cards)
  | .endTurn => Failure.reply .action run (rules.endTurn run)

/-- Performs calls one after another; why each was rejected, if it was, and the run after all of
them. -/
def performAll (rules : Rules) (run : Run) :
    List Call → Except Fault (List (Option Rejection) × Run)
  | [] => .ok ([], run)
  | call :: calls => do
    let (rejection, run) ← rules.perform run call
    let (rejections, run) ← rules.performAll run calls
    return (rejection :: rejections, run)

end Rules

end CardCombat
