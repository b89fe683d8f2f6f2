import CardCombat.Action.Call
import CardCombat.Proofs.Success

/-!
# What is asked of a run

Besides the calls a combat can be left, its outcome, its playable cards and its events can be asked
for, and the player can be kept from acting while events are shown. Each of these is a request, and
the requests of a player are served one after another, up to the first fault.

No rule reads what the last resolution has written down: two runs that differ in nothing else give
the same replies and, but for that, become the same runs.

## Main definitions

* `Rules.serve`, `Rules.serveAll` -- the replies to requests, and the run after them.
* `Run.unwritten` -- a run without what the last resolution has written down.

## Main results

* `Rules.serveAll_unwritten` -- what was written down changes no reply.
-/

namespace CardCombat

/-- Something that is asked of a run, by who plays or by who shows it. -/
inductive Request where
  | call (call : Call)
  | leave
  | outcome
  | playable
  | fetch
  | lock (locked : Bool)

/-- What a request is answered with. -/
inductive Reply where
  | called (rejection : Option Rejection)
  | left (phase : Option Phase)
  | outcome (phase : Option Phase)
  | playable (cards : List CardUid)
  | fetched (events : Array Event)
  | locked

namespace Rules

variable (rules : Rules)

/-- Serves a request: the reply, and the run after it. -/
def serve (run : Run) : Request → Except Fault (Reply × Run)
  | .call call => return (← rules.perform run call).map .called id
  | .leave => return run.leaveCombat.map .left id
  | .outcome => return (.outcome run.outcome, run)
  | .playable => return (.playable (← rules.playableCards run), run)
  | .fetch => return run.drain.map .fetched id
  | .lock locked => return (.locked, { run with combat := run.combat.map ({ · with locked }) })

/-- Serves requests one after another: the replies, and the run after all of them. -/
def serveAll (run : Run) : List Request → Except Fault (List Reply × Run)
  | [] => return ([], run)
  | request :: requests => do
    let (reply, run) ← rules.serve run request
    let (replies, run) ← serveAll run requests
    return (reply :: replies, run)

end Rules

namespace Run

/-- The run without what the last resolution has written down. -/
def unwritten (run : Run) : Run := { run with chronicle := #[] }

@[simp]
theorem unwritten_unwritten (run : Run) : run.unwritten.unwritten = run.unwritten := rfl

/-! ## Changing a run -/

variable {run : Run}

theorem resolve_unwritten (m : Resolution Unit) :
    (run.unwritten.resolve m).map unwritten = (run.resolve m).map unwritten := by
  unfold resolve
  rw [show run.unwritten.scene? = run.scene? from rfl]
  cases run.scene? with
  | none => rfl
  | some scene => rfl

theorem conclude_unwritten : run.unwritten.conclude = run.conclude.map unwritten := by
  unfold conclude
  rw [show run.unwritten.combat = run.combat from rfl]
  cases run.combat with
  | none => rfl
  | some combat =>
      dsimp only
      split
      · rfl
      · split
        · rfl
        · split
          · rw [show run.unwritten.stats = run.stats from rfl]
            cases Unsigned.add 64 run.stats.combatsWon 1 <;> rfl
          · rfl

/-- **Whatever is resolved**, it does not depend on what was written down before. -/
theorem advance_unwritten (m : Resolution Unit) :
    (run.unwritten.advance m).map unwritten = (run.advance m).map unwritten := by
  refine map_bind_congr (resolve_unwritten m) fun run run' h => ?_
  have hconclude {run : Run} : run.conclude.map unwritten = run.unwritten.conclude :=
    conclude_unwritten.symm
  rw [hconclude, hconclude, h]

theorem leaveCombat_unwritten :
    run.unwritten.leaveCombat = run.leaveCombat.map id unwritten := by
  unfold leaveCombat
  rw [show run.unwritten.combat = run.combat from rfl]
  cases run.combat with
  | none => rfl
  | some combat =>
      dsimp only
      split <;> rfl

theorem drain_unwritten : run.unwritten.drain = run.drain.map id unwritten := by
  unfold drain
  rw [show run.unwritten.combat = run.combat from rfl]
  cases run.combat with
  | none => rfl
  | some combat => rfl

end Run

/-! ## Requests -/

namespace Rules

open Run

variable {rules : Rules} {run : Run}

/-- The answer to a call that carries out a resolution. -/
theorem lift_advance_unwritten {ε : Type} (m : Resolution Unit) :
    ((run.unwritten.advance m).mapError Failure.fault : Except (Failure ε) Run).map unwritten =
      ((run.advance m).mapError Failure.fault).map unwritten := by
  have h : (run.unwritten.advance m).map unwritten = (run.advance m).map unwritten :=
    advance_unwritten m
  cases hx : run.unwritten.advance m <;> cases hy : run.advance m <;> rw [hx, hy] at h
  case error.error => exact congrArg (Except.error ∘ Failure.fault) (Except.error.inj h)
  case ok.ok => exact congrArg Except.ok (Except.ok.inj h)
  all_goals exact absurd h nofun

theorem startCombat_unwritten (enemies : List String) :
    (rules.startCombat run.unwritten enemies).map unwritten =
      (rules.startCombat run enemies).map unwritten := by
  refine map_bind_right fun _ => map_bind_right fun _ => ?_
  rw [show run.unwritten.deck = run.deck from rfl, show run.unwritten.rng = run.rng from rfl]
  cases (rules.shuffledDeck run.deck).run run.rng
  refine .trans ?_ (lift_advance_unwritten _)
  rfl

theorem playCard_unwritten (uid : CardUid) (target : Option CombatantId) :
    (rules.playCard run.unwritten uid target).map unwritten =
      (rules.playCard run uid target).map unwritten :=
  map_bind_right fun _ => map_bind_right fun _ => lift_advance_unwritten _

theorem useAbility_unwritten :
    (rules.useAbility run.unwritten).map unwritten = (rules.useAbility run).map unwritten := by
  refine map_bind_right fun combat => ?_
  rw [show rules.ability? run.unwritten = rules.ability? run from rfl]
  cases rules.ability? run with
  | none => rfl
  | some ability =>
      dsimp only
      split
      · rfl
      · exact lift_advance_unwritten _

theorem answerSelection_unwritten (chosen : List CardUid) :
    (rules.answerSelection run.unwritten chosen).map unwritten =
      (rules.answerSelection run chosen).map unwritten := by
  refine map_bind_right fun combat => map_bind_right fun _ => ?_
  cases combat.pending with
  | none => rfl
  | some selection =>
      dsimp only
      split
      · rfl
      · exact lift_advance_unwritten _

theorem endTurn_unwritten :
    (rules.endTurn run.unwritten).map unwritten = (rules.endTurn run).map unwritten :=
  map_bind_right fun _ => lift_advance_unwritten _

/-- What is answered to a call, up to what was written down. -/
theorem reply_unwritten {ε : Type} {reason : ε → Rejection} {x y : Except (Failure ε) Run}
    (h : x.map unwritten = y.map unwritten) :
    (Failure.reply reason run.unwritten x).map (Prod.map id unwritten) =
      (Failure.reply reason run y).map (Prod.map id unwritten) := by
  cases x with
  | error e =>
      cases y with
      | error e' =>
          obtain rfl := Except.error.inj h
          cases e <;> rfl
      | ok after => exact absurd h nofun
  | ok before =>
      cases y with
      | error e' => exact absurd h nofun
      | ok after => exact congrArg (fun run => Except.ok (none, run)) (Except.ok.inj h)

/-- **A call** is answered alike, and leaves the same behind. -/
theorem perform_unwritten (call : Call) :
    (rules.perform run.unwritten call).map (Prod.map id unwritten) =
      (rules.perform run call).map (Prod.map id unwritten) := by
  cases call with
  | start enemies => exact reply_unwritten (startCombat_unwritten enemies)
  | play uid target => exact reply_unwritten (playCard_unwritten uid target)
  | ability => exact reply_unwritten useAbility_unwritten
  | select chosen => exact reply_unwritten (answerSelection_unwritten chosen)
  | endTurn => exact reply_unwritten endTurn_unwritten

/-- **A request** is answered alike, and leaves the same behind. -/
theorem serve_unwritten (request : Request) :
    (rules.serve run.unwritten request).map (Prod.map id unwritten) =
      (rules.serve run request).map (Prod.map id unwritten) := by
  cases request with
  | call call =>
      refine map_bind_congr (perform_unwritten call) fun _ _ h => ?_
      exact congrArg (fun answer => Except.ok (Reply.called answer.1, answer.2)) h
  | leave =>
      show Except.ok _ = Except.ok _
      rw [leaveCombat_unwritten]
      rfl
  | outcome => rfl
  | playable => exact map_bind_right fun _ => rfl
  | fetch =>
      show Except.ok _ = Except.ok _
      rw [drain_unwritten]
      rfl
  | lock locked => rfl

/-- **Requests** are answered alike one after another, and leave the same behind. -/
theorem serveAll_unwritten (requests : List Request) :
    (rules.serveAll run.unwritten requests).map (Prod.map id unwritten) =
      (rules.serveAll run requests).map (Prod.map id unwritten) := by
  induction requests generalizing run with
  | nil => rfl
  | cons request requests ih =>
      refine map_bind_congr (serve_unwritten request) fun answer answer' h => ?_
      obtain ⟨reply, before⟩ := answer
      obtain ⟨reply', after⟩ := answer'
      obtain ⟨rfl, hrun⟩ : reply = reply' ∧ before.unwritten = after.unwritten := Prod.mk.inj h
      have hrest : (rules.serveAll before requests).map (Prod.map id unwritten) =
          (rules.serveAll after requests).map (Prod.map id unwritten) := by
        rw [← ih, hrun, ih]
      refine map_bind_congr hrest fun _ _ h => ?_
      exact congrArg (fun rest => Except.ok (reply :: rest.1, rest.2)) h

end Rules

end CardCombat
