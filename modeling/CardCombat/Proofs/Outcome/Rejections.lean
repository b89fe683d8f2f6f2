import CardCombat.Action.InPlace
import CardCombat.Proofs.Outcome.Answers

/-!
# Calls that are rejected

A call in place leaves a result on a run if it leaves the run that the result gives, or else gives
up as the result does and leaves the run as it was. To look something up changes nothing, so up to
the first write a call may well be rejected. From then on it may not: the checks that are made once
more in the midst of a resolution never fail, since the scene is that of the run which was looked at
before. So a call in place leaves exactly what the call gives that returns a new run.

## Main definitions

* `InPlace.Leaves` -- what a call in place does to a run, all or nothing.

## Main results

* `Rules.attempt_eq_perform` -- calls in place do what calls do.
* `Rules.run_of_attempt_rejected` -- a call in place that is rejected has changed nothing.
-/

namespace CardCombat

variable {rules : Rules} {run run' : Run} {ε α : Type}

/-- The scene of a run with a combat shows that combat. -/
theorem Run.scene?_of_combat {combat : Combat} (h : run.combat = some combat) :
    ∃ scene, run.scene? = some scene ∧ scene.combat = combat := by
  unfold scene?
  rw [h]
  exact ⟨_, rfl, rfl⟩

namespace InPlace

/-- The call in place leaves the run that is the result, or it gives up like the result and leaves
the run as it is. -/
def Leaves (call : InPlace ε Unit) (run : Run) (result : Except (Failure ε) Run) : Prop :=
  call.run.run run =
    match result with
    | .ok run' => .ok (.ok (), run')
    | .error (.rejected reason) => .ok (.error reason, run)
    | .error (.fault cause) => .error cause

variable {call before : InPlace ε Unit} {m : Resolution Unit} {result : Except (Failure ε) Run}
  {outcome : Except Fault Run}

/-- A call that leaves a result performs what the result says. -/
theorem Leaves.perform_eq (h : Leaves call run result) (reason : ε → Rejection) :
    InPlace.perform reason call run = Failure.reply reason run result := by
  unfold InPlace.perform
  rw [h]
  rcases result with (reason | cause) | run' <;> rfl

/-! ## Before the first write -/

theorem leaves_throw (reason : ε) : Leaves (throw reason) run (.error (.rejected reason)) := rfl

theorem leaves_get {rest : Run → InPlace ε Unit} (h : Leaves (rest run) run result) :
    Leaves (get >>= rest) run result := h

theorem leaves_get_bind {next : Run → InPlace ε α} {rest : α → InPlace ε Unit}
    (h : Leaves (next run >>= rest) run result) : Leaves (get >>= next >>= rest) run result := h

/-- Nothing has changed when something was looked up. -/
theorem leaves_look {find : Run → Except (Failure ε) α} {rest : α → InPlace ε Unit}
    {next : α → Except (Failure ε) Run}
    (h : ∀ found, find run = .ok found → Leaves (rest found) run (next found)) :
    Leaves (look find >>= rest) run (find run >>= next) := by
  unfold look
  refine leaves_get_bind ?_
  cases hfind : find run with
  | ok found => exact h found hfind
  | error failure =>
      cases failure with
      | rejected | fault => rfl

/-! ## From the first write on -/

/-- What is written is not rejected any more. -/
theorem leaves_write (change : Run → Except Fault Run) (run : Run) :
    Leaves (write change : InPlace ε Unit) run (change run) := by
  have hwrite : (write change : InPlace ε Unit).run.run run =
      (do set (← (change run : Except Fault Run)) : InPlace ε Unit).run.run run := rfl
  unfold Leaves
  rw [hwrite]
  cases change run with
  | ok | error => rfl

/-- What comes after a write has the run that was written to work on. -/
theorem Leaves.of_written (h : Leaves call run' outcome)
    (heq : before.run.run run = call.run.run run') : Leaves before run outcome := by
  unfold Leaves at h ⊢
  rw [heq, h]
  cases outcome with
  | ok | error => rfl

theorem run_combat_bind {work : Combat → ExceptT ActionError Resolution Unit} {scene : Scene} :
    (do work (← Resolution.combat) : ExceptT ActionError Resolution Unit).run.run scene =
      (work scene.combat).run.run scene := rfl

/-- Work that does not give up is a resolution. -/
theorem leaves_draft {work : ExceptT ActionError Resolution Unit} {scene : Scene}
    (hscene : run.scene? = some scene)
    (h : work.run.run scene = (m.run scene).map fun (_, scene) => (.ok (), scene)) :
    Leaves (draft work) run (run.resolve m) := by
  unfold draft
  refine leaves_get ?_
  rw [hscene]
  unfold Leaves Run.resolve
  rw [hscene]
  dsimp only
  rw [h]
  cases m.run scene with
  | ok | error => rfl

/-- A resolution is carried out, and the combat ends if one side is beaten. -/
theorem Leaves.advance (h : Leaves call run (run.resolve m)) :
    Leaves (do call; write Run.conclude) run (run.advance m) := by
  have hbind : (do call; write Run.conclude : InPlace ε Unit).run.run run =
      call.run.run run >>= fun
        | (.ok (), run) => (write Run.conclude).run.run run
        | (.error reason, run) => .ok (.error reason, run) := by
    show (call.run.run run >>= fun p => _) = _
    congr 1
    funext ⟨outcome, run⟩
    cases outcome <;> rfl
  unfold Leaves Run.advance
  rw [hbind, h]
  cases run.resolve m with
  | error cause => rfl
  | ok resolved =>
    show (write Run.conclude).run.run resolved = _
    rw [leaves_write]
    show _ = match (resolved.conclude : Except (Failure ε) Run) with
      | .ok run' => _
      | .error (.rejected reason) => _
      | .error (.fault cause) => _
    cases resolved.conclude with
    | ok | error => rfl

theorem leaves_advance (m : Resolution Unit) (run : Run) :
    Leaves (do write (·.resolve m); write Run.conclude : InPlace ε Unit) run (run.advance m) :=
  Leaves.advance (leaves_write (·.resolve m) run)

end InPlace

/-! ## The calls -/

namespace Rules

open InPlace

theorem startCombat_leaves (enemies : List String) (run : Run) :
    Leaves (rules.startCombatInPlace enemies) run (rules.startCombat run enemies) := by
  refine leaves_look fun templates _ => leaves_look fun combat _ => ?_
  let dealt := (rules.shuffledDeck run.deck).run run.rng
  have hopen := @leaves_advance ContentError (Resolution.openCombat rules)
    { run with combat := some { combat with piles := { drawPile := dealt.1 } }, rng := dealt.2 }
  exact hopen.of_written rfl

/-- A card that can be played is still in the hand when it is taken. -/
theorem takeFrom?_isSome {combat : Combat} {uid : CardUid} {play : Play}
    (h : rules.checkPlay combat uid = .ok play) :
    (combat.piles.takeFrom? .hand uid).isSome := by
  have hhand : (combat.piles.get .hand).find? (·.uid == uid) = some play.card :=
    (Undertakes.checkPlay_spec h).1
  rw [Piles.takeFrom?, hhand]
  rfl

theorem playCard_leaves (uid : CardUid) (target : Option CombatantId) (run : Run) :
    Leaves (rules.playCardInPlace uid target) run (rules.playCard run uid target) := by
  have hplay : rules.playCard run uid target =
      (do rules.checkPlay (← run.readyCombat) uid) >>= fun play =>
        (run.advance (Resolution.play rules play target) : Except (Failure ActionError) Run) := by
    unfold playCard
    cases run.readyCombat <;> rfl
  rw [hplay]
  refine leaves_look fun play hfound => ?_
  obtain ⟨combat, hready, hcheck⟩ := bind_eq_ok.mp hfound
  obtain ⟨scene, hscene, rfl⟩ :=
    Run.scene?_of_combat (Run.readyCombat_eq_ok_iff.mp (mapError_eq_ok.mp hready)).1
  refine Leaves.advance (leaves_draft hscene ?_)
  have htake : ¬(scene.combat.piles.takeFrom? .hand uid).isNone := by
    rw [Bool.not_eq_true, Option.isNone_eq_false_iff]
    exact takeFrom?_isSome hcheck
  show (if (scene.combat.piles.takeFrom? .hand uid).isNone then throw (.cardNotInHand uid)
    else Resolution.play rules play target :
      ExceptT ActionError Resolution Unit).run.run scene = _
  rw [if_neg htake]
  rfl

theorem useAbility_leaves (run : Run) :
    Leaves rules.useAbilityInPlace run (rules.useAbility run) := by
  refine leaves_look fun combat hready => leaves_get ?_
  obtain ⟨scene, hscene, rfl⟩ :=
    Run.scene?_of_combat (Run.readyCombat_eq_ok_iff.mp (mapError_eq_ok.mp hready)).1
  cases rules.ability? run with
  | none => exact leaves_throw _
  | some ability =>
    dsimp only
    by_cases hspent : scene.combat.resources.abilityUsedThisTurn ||
        scene.combat.resources.abilityCharge < scene.combat.resources.abilityChargeRequired
    · rw [if_pos hspent, if_pos hspent]
      exact leaves_throw _
    · rw [if_neg hspent, if_neg hspent]
      refine Leaves.advance (leaves_draft hscene ?_)
      rfl

theorem answerSelection_leaves (chosen : List CardUid) (run : Run) :
    Leaves (rules.answerSelectionInPlace chosen) run (rules.answerSelection run chosen) := by
  refine leaves_look fun combat hcurrent => leaves_look fun _ _ => ?_
  obtain ⟨scene, hscene, rfl⟩ :=
    Run.scene?_of_combat (Run.currentCombat_eq_ok_iff.mp (mapError_eq_ok.mp hcurrent))
  cases hpending : scene.combat.pending with
  | none => exact leaves_throw _
  | some selection =>
    dsimp only
    cases selection.check chosen with
    | error reason => exact leaves_throw _
    | ok =>
      refine Leaves.advance (leaves_draft hscene ?_)
      rw [run_combat_bind, hpending]
      rfl

theorem endTurn_leaves (run : Run) : Leaves rules.endTurnInPlace run (rules.endTurn run) := by
  have hturn : rules.endTurn run = (run.readyCombat : Except (Failure ActionError) _) >>=
      fun _ => (run.advance (Resolution.passTurn rules) : Except (Failure ActionError) _) := by
    unfold endTurn
    cases run.readyCombat <;> rfl
  rw [hturn]
  exact leaves_look fun _ _ => leaves_advance _ run

/-- **Calls in place do what calls do**: they give the same answer and leave the same run. -/
theorem attempt_eq_perform (run : Run) (call : Call) :
    rules.attempt run call = rules.perform run call := by
  cases call with
  | start enemies => exact (startCombat_leaves enemies run).perform_eq _
  | play uid target => exact (playCard_leaves uid target run).perform_eq _
  | ability => exact (useAbility_leaves run).perform_eq _
  | select chosen => exact (answerSelection_leaves chosen run).perform_eq _
  | endTurn => exact (endTurn_leaves run).perform_eq _

/-- **A call that is rejected has changed nothing**, though it changes the run in place; and it is
rejected for the same reason by the call that returns a new run. -/
theorem run_of_attempt_rejected {call : Call} {rejection : Rejection}
    (h : rules.attempt run call = .ok (some rejection, run')) :
    run' = run ∧ rules.perform run call = .ok (some rejection, run) := by
  rw [attempt_eq_perform] at h
  obtain rfl := run_of_rejected h
  exact ⟨rfl, h⟩

/-- A selection that is answered with the same card twice waits as before. -/
theorem run_of_attempt_rejected_snare :
    snareRules.attempt snarePlayed (.select [⟨1⟩, ⟨1⟩]) =
      .ok (some (.action (.invalidSelection .duplicate)), snarePlayed) := by
  have hperform : snareRules.perform snarePlayed (.select [⟨1⟩, ⟨1⟩]) =
      .ok (some (.action (.invalidSelection .duplicate)),
        snareRules.after snarePlayed (.select [⟨1⟩, ⟨1⟩])) :=
    perform_eq_of_answer (by decide +kernel)
  have hattempt := (attempt_eq_perform snarePlayed _).trans hperform
  rw [hattempt, (run_of_attempt_rejected hattempt).1]

end Rules

end CardCombat
