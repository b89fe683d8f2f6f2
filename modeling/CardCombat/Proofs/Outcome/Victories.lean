import CardCombat.Proofs.Frame.Effects
import CardCombat.Proofs.Outcome.Phases
import CardCombat.Proofs.Outcome.Waiting

/-!
# What a combat leaves to the run

Nothing that is resolved counts a victory. An accepted call counts one when it is over and the
combat has come to its victory with it; such a call finds the combat in the player's turn, and after
a victory no call is accepted but the start of another combat. So a combat that is won is counted
once, however long it is looked at. The player's health comes back to the run when the combat ends;
a combat that is left before its end brings it back then.

## Main definitions

* `Run.Shares` -- the run has the health of the player in a combat.
* `Rules.Campaign` -- a history of a run, with the combats in it and the phases they went through.

## Main results

* `sameWins_governs` -- effects, turns and plays count no victory.
* `Rules.concluded_of_accepted` -- what an accepted call leaves to the run.
* `Rules.victories_counted` -- every combat that is won is counted once, and health comes back.
-/

namespace CardCombat

open Resolution

variable {rules : Rules} {s t : Scene}

/-! ## While something is resolved -/

/-- As many victories were counted as before. -/
def SameWins (s t : Scene) : Prop := t.stats.combatsWon = s.stats.combatsWon

namespace SameWins

theorem of_framed (h : Framed s t) : SameWins s t := congrArg Bookkeeping.combatsWon h.bookkeeping

theorem of_setCombatant (id : CombatantId) (combatant : Combatant) :
    SameWins s (s.setCombatant id combatant) :=
  congrArg Bookkeeping.combatsWon (Scene.bookkeeping_setCombatant id combatant)

theorem prevails : Prevails rules Effect.Any SameWins where
  flow := ⟨fun _ => rfl, fun h h' => h'.trans h⟩
  step h := of_framed (framed_prevails.step h)
  blow h := of_framed ((@framed_prevails rules).blow h)
  opens h := of_framed ((@framed_prevails rules).opens h)
  closes h := of_framed (framed_prevails.closes h)

theorem of_upkeep (h : Upkeep rules s t) : SameWins s t := by
  cases h with
  | decayed | eased | bared | moved | declared => exact of_setCombatant _ _
  | told | released | turned | charged | discharged => rfl

theorem of_enters {card : Card} {cost : Int} (h : Enters card cost s t) : SameWins s t := by
  cases h with
  | mk _ hp =>
      cases hp with
      | nothing | energy => rfl

/-- **Turns and plays count no victory.** -/
theorem governs : Governs rules Effect.Any SameWins := by
  refine prevails.governs rules.content.permits_any of_upkeep of_enters
    (fun _ _ => rfl) fun {s id combatant intent ctx a t} _ _ hrun => ?_
  have hacted : SameWins (s.report (.intent id intent.name)) t :=
    (prevails.carryOut rules.content.permits_any (fun _ _ => trivial) ctx).rel hrun
  exact hacted

end SameWins

/-! ## When a call is over -/

namespace Run

variable {run run' : Run} {combat : Combat}

/-- The run has the health that the player has in the combat. -/
structure Shares (run : Run) (combat : Combat) : Prop where
  health : run.health = combat.player.health
  maxHealth : run.maxHealth = combat.player.maxHealth

/-- **The end of a combat** that goes on counts a victory if it is one, and brings the player's
health back. -/
theorem conclude_counts (hc : run.combat = some combat) (hgoing : ¬combat.phase.isTerminal)
    (h : run.conclude = .ok run') :
    ∃ ended, run'.combat = some ended ∧
      run'.stats.combatsWon =
        run.stats.combatsWon + (if ended.phase = .victory then 1 else 0) ∧
      (ended.phase.isTerminal → run'.Shares ended) := by
  unfold conclude at h
  rw [hc] at h
  dsimp only at h
  rw [if_neg hgoing] at h
  split at h
  case h_1 =>
    obtain rfl := Except.ok.inj h
    have hnot : ¬combat.phase = .victory := fun hphase => hgoing (hphase ▸ rfl)
    exact ⟨combat, hc, by rw [if_neg hnot, Nat.add_zero], fun hover => absurd hover hgoing⟩
  case h_2 phase ended hended =>
    have hphase : ended.phase = phase := by
      unfold Combat.endIfDecided at hended
      rw [if_neg hgoing] at hended
      split at hended
      · obtain ⟨hphase, rfl⟩ := Prod.mk.inj hended
        exact Option.some.inj hphase
      · split at hended
        · obtain ⟨hphase, rfl⟩ := Prod.mk.inj hended
          exact Option.some.inj hphase
        · exact absurd (Prod.mk.inj hended).1 nofun
    rw [← hphase] at h
    split at h
    case isTrue hvictory =>
      obtain ⟨combatsWon, hcount, h⟩ := bind_eq_ok.mp h
      obtain ⟨-, rfl⟩ := Unsigned.add_eq_ok_iff.mp hcount
      obtain rfl := Except.ok.inj h
      exact ⟨ended, rfl, by rw [if_pos (beq_iff_eq.mp hvictory)], fun _ => ⟨rfl, rfl⟩⟩
    case isFalse hvictory =>
      obtain rfl := Except.ok.inj h
      have hnot : ¬ended.phase = .victory := fun hphase => hvictory (beq_iff_eq.mpr hphase)
      exact ⟨ended, rfl, by rw [if_neg hnot, Nat.add_zero], fun _ => ⟨rfl, rfl⟩⟩

/-- **A combat that is left** leaves the player's health to the run, if it had done so already in
case it was over. -/
theorem shares_leaveCombat (hc : run.combat = some combat)
    (hover : combat.phase.isTerminal → run.Shares combat) :
    run.leaveCombat.2.Shares combat := by
  unfold leaveCombat
  rw [hc]
  dsimp only
  split
  case isTrue hterminal => exact ⟨(hover hterminal).health, (hover hterminal).maxHealth⟩
  case isFalse => exact ⟨rfl, rfl⟩

theorem stats_leaveCombat : run.leaveCombat.2.stats = run.stats := by
  unfold leaveCombat
  split
  case h_1 => rfl
  case h_2 => split <;> rfl

end Run

namespace Rules

variable {run run' before after : Run} {call : Call} {combat : Combat} {m : Resolution Unit}

/-- What a call sets going counts no victory. -/
theorem sameWins_of_undertakes (hm : Undertakes rules run call combat m) :
    Ensures SameWins m :=
  SameWins.governs.undertakes rules.content.permits_any (fun _ => rfl) (fun _ => rfl)
    (fun _ => rfl) (fun _ _ _ => rfl) hm

/-- **An accepted call** leaves a combat, and it has counted a victory if the combat has come to its
victory; if the combat is over, the player's health is that of the run. -/
theorem concluded_of_accepted (h : rules.perform before call = .ok (none, after)) :
    ∃ combat, after.combat = some combat ∧
      after.stats.combatsWon =
        before.stats.combatsWon + (if combat.phase = .victory then 1 else 0) ∧
      (combat.phase.isTerminal → after.Shares combat) := by
  obtain ⟨started, combat, m, -, -, hstats, hc, hm, hadvance⟩ := advances_of_accepted h
  obtain ⟨resolved, hresolve, hconclude⟩ := bind_eq_ok.mp hadvance
  unfold Run.resolve Run.scene? at hresolve
  rw [hc] at hresolve
  obtain ⟨⟨⟨⟩, t⟩, hrun, hresolved⟩ := bind_eq_ok.mp hresolve
  obtain rfl := Except.ok.inj hresolved
  have hgoing : ¬t.combat.phase.isTerminal := by
    rcases hm.phase_of_run hrun with hphase | ⟨hphase, -⟩ <;> rw [hphase] <;> decide
  obtain ⟨ended, hended, hcount, hover⟩ := Run.conclude_counts rfl hgoing hconclude
  have hwins : t.stats.combatsWon = before.stats.combatsWon :=
    ((sameWins_of_undertakes hm).rel hrun).trans (congrArg Stats.combatsWon hstats)
  exact ⟨ended, hended, hcount.trans (congrArg (· + _) hwins), hover⟩

/-- An accepted call finds the combat in the player's turn, unless it starts a new one. -/
theorem phase_of_accepted (h : rules.perform before call = .ok (none, after))
    (hnew : ∀ enemies, call ≠ .start enemies) :
    ∃ combat, before.combat = some combat ∧ combat.phase = .playerTurn := by
  obtain ⟨s, t, m, hm, -⟩ := undertakes_of_accepted h
  exact ⟨s.combat, hm.combat_eq hnew, hm.phase_eq⟩

end Rules

/-! ## Campaigns -/

/-- Writes down the phase of the combat after something has happened: the first one of a combat that
has begun with it, or one more of the combat that goes on. The last combat stands first, and so does
the last phase of each. -/
def Happening.noted : Happening → Option Phase → List (List Phase) → List (List Phase)
  | .called (.start _) none, some phase, combats => [phase] :: combats
  | _, some phase, phases :: combats => (phase :: phases) :: combats
  | _, _, combats => combats

namespace Rules

/-- What comes of a run without a combat when things happen to it one after another, with the phases
that its combats have gone through. -/
inductive Campaign (rules : Rules) (run : Run) : List (List Phase) → Run → Prop
  | begin (h : run.combat = none) : Campaign rules run [] run
  | next {combats happening before after} (h : Campaign rules run combats before)
      (hlast : rules.Befalls before happening after) :
      Campaign rules run (happening.noted (after.combat.map (·.phase)) combats) after

variable {run run' before after : Run} {combats : List (List Phase)} {happening : Happening}

/-- Whatever happens to a run without a combat makes a campaign. -/
theorem campaign_of_history {history : List Happening} (hnone : run.combat = none)
    (h : rules.History run history run') : ∃ combats, rules.Campaign run combats run' := by
  induction h with
  | nil => exact ⟨[], .begin hnone⟩
  | snoc _ hlast ih =>
      obtain ⟨combats, hcampaign⟩ := ih
      exact ⟨_, .next hcampaign hlast⟩

/-- The books of the run are right: so many victories were counted as combats were won, a combat
that goes on was won if it is in its victory, and the health is right where the combat is over. -/
structure Tallied (run : Run) (combats : List (List Phase)) (run' : Run) : Prop where
  wins : run'.stats.combatsWon = run.stats.combatsWon + combats.countP (·.contains .victory)
  current : ∀ combat, run'.combat = some combat → ∃ phases earlier, combats = phases :: earlier ∧
    phases.contains .victory = decide (combat.phase = .victory)
  shares : ∀ combat, run'.combat = some combat → combat.phase.isTerminal → run'.Shares combat

/-- Once a phase was a victory, all later ones are. -/
theorem contains_victory_cons {phase : Phase} {phases : List Phase}
    (h : phases.contains .victory = true → phase = .victory) :
    (phase :: phases).contains .victory = decide (phase = .victory) := by
  cases hbefore : phases.contains .victory with
  | true =>
      rw [h hbefore, List.contains_cons]
      rfl
  | false =>
      rw [List.contains_cons, hbefore]
      cases phase <;> rfl

namespace Tallied

theorem countP_cons (phases : List Phase) :
    (phases :: combats).countP (·.contains .victory) =
      combats.countP (·.contains .victory) + (if phases.contains .victory then 1 else 0) :=
  List.countP_cons

/-- A combat begins. -/
theorem started {enemies : List String} (h : Tallied run combats before)
    (hcall : rules.perform before (.start enemies) = .ok (none, after)) :
    Tallied run ((Happening.called (.start enemies) none).noted
      (after.combat.map (·.phase)) combats) after := by
  obtain ⟨combat, hc, hwins, hover⟩ := concluded_of_accepted hcall
  rw [hc]
  have hphase := @contains_victory_cons combat.phase [] nofun
  refine ⟨?_, fun other hother => ?_, fun other hother => ?_⟩
  · show _ = _ + ([combat.phase] :: combats).countP _
    rw [countP_cons, hphase, hwins, h.wins]
    simp only [decide_eq_true_eq]
    omega
  · obtain rfl := Option.some.inj (hc.symm.trans hother)
    exact ⟨_, _, rfl, hphase⟩
  · obtain rfl := Option.some.inj (hc.symm.trans hother)
    exact hover

/-- A call is accepted in the combat that goes on: no victory was among its phases before. -/
theorem went {call : Call} (h : Tallied run combats before)
    (hcall : rules.perform before call = .ok (none, after))
    (hnew : ∀ enemies, call ≠ .start enemies) :
    Tallied run ((Happening.called call none).noted (after.combat.map (·.phase)) combats)
      after := by
  obtain ⟨combat, hc, hwins, hover⟩ := concluded_of_accepted hcall
  obtain ⟨found, hfound, hturn⟩ := phase_of_accepted hcall hnew
  obtain ⟨phases, earlier, rfl, hnone⟩ := h.current found hfound
  rw [hturn] at hnone
  have hnoted : (Happening.called call none).noted (after.combat.map (·.phase))
      (phases :: earlier) = (combat.phase :: phases) :: earlier := by
    rw [hc]
    cases call with
    | start enemies => exact absurd rfl (hnew enemies)
    | play | ability | select | endTurn => rfl
  have hphase := @contains_victory_cons combat.phase phases
    fun hbefore => absurd (hnone.symm.trans hbefore) (by decide)
  have hearlier := h.wins
  rw [countP_cons, hnone] at hearlier
  rw [hnoted]
  refine ⟨?_, fun other hother => ?_, fun other hother => ?_⟩
  · have hnotYet : (if decide (Phase.playerTurn = .victory) = true then 1 else 0) = 0 := rfl
    rw [hnotYet] at hearlier
    rw [countP_cons, hphase, hwins, hearlier]
    simp only [decide_eq_true_eq]
    omega
  · obtain rfl := Option.some.inj (hc.symm.trans hother)
    exact ⟨_, _, rfl, hphase⟩
  · obtain rfl := Option.some.inj (hc.symm.trans hother)
    exact hover

/-- The combat is seen once more as it was. -/
theorem seen (h : Tallied run combats before) (hstats : after.stats = before.stats)
    (hphase : after.combat.map (·.phase) = before.combat.map (·.phase))
    (hshares : ∀ combat, after.combat = some combat → combat.phase.isTerminal →
      after.Shares combat)
    (hnoted : ∀ phase phases earlier, happening.noted (some phase) (phases :: earlier) =
      (phase :: phases) :: earlier)
    (hnone : happening.noted none combats = combats) :
    Tallied run (happening.noted (after.combat.map (·.phase)) combats) after := by
  cases hafter : after.combat with
  | none =>
      rw [Option.map_none, hnone]
      refine ⟨by rw [hstats, h.wins], fun combat hc => ?_, fun combat hc => ?_⟩
      · exact absurd (hafter.symm.trans hc) nofun
      · exact absurd (hafter.symm.trans hc) nofun
  | some combat =>
      rw [hafter] at hphase
      obtain ⟨found, hfound, hsame⟩ := Option.map_eq_some_iff.mp hphase.symm
      obtain ⟨phases, earlier, rfl, hvictory⟩ := h.current found hfound
      rw [hsame] at hvictory
      rw [Option.map_some, hnoted]
      have hagain := @contains_victory_cons combat.phase phases
        fun hbefore => of_decide_eq_true (hvictory.symm.trans hbefore)
      refine ⟨?_, fun other hother => ?_, hshares⟩
      · rw [countP_cons, hagain, ← hvictory, ← countP_cons, hstats, h.wins]
      · obtain rfl := Option.some.inj (hafter.symm.trans hother)
        exact ⟨_, _, rfl, hagain⟩

/-- **Whatever happens to the run**, its books are right afterwards. -/
theorem befalls (h : Tallied run combats before) (hlast : rules.Befalls before happening after) :
    Tallied run (happening.noted (after.combat.map (·.phase)) combats) after := by
  cases hlast with
  | @called call rejection _ hcall =>
      cases rejection with
      | none =>
          by_cases hstart : ∃ enemies, call = .start enemies
          · obtain ⟨enemies, rfl⟩ := hstart
            exact h.started hcall
          · exact h.went hcall fun enemies heq => hstart ⟨enemies, heq⟩
      | some rejection =>
          obtain rfl := run_of_rejected hcall
          refine h.seen rfl rfl h.shares (fun phase phases earlier => ?_) ?_
          · cases call <;> rfl
          · cases call <;> rfl
  | left =>
      rw [combat_leaveCombat]
      refine ⟨?_, fun combat hc => ?_, fun combat hc => ?_⟩
      · rw [Run.stats_leaveCombat]
        exact h.wins
      · exact absurd ((combat_leaveCombat before).symm.trans hc) nofun
      · exact absurd ((combat_leaveCombat before).symm.trans hc) nofun
  | @attended combat hc events locked =>
      refine h.seen rfl (by rw [hc]; rfl) (fun other hother hover => ?_)
        (fun _ _ _ => rfl) rfl
      obtain rfl := Option.some.inj hother
      obtain ⟨hhealth, hmaxHealth⟩ := h.shares combat hc hover
      exact ⟨hhealth, hmaxHealth⟩

end Tallied

/-- The books of a run are right all through a campaign. -/
theorem Campaign.kept (h : rules.Campaign run combats run') : Tallied run combats run' := by
  induction h with
  | begin hnone =>
      refine ⟨rfl, fun combat hc => ?_, fun combat hc => ?_⟩ <;>
        exact absurd (hnone.symm.trans hc) nofun
  | next _ hlast ih => exact ih.befalls hlast

/-- **Victories are counted once, and health comes back.** Whatever happens to a run, in its totals
there is one more victory for every combat that has come to its victory and nothing for any other
one; while a combat is over the run has the health that the player has in it, and so it has when the
combat is left, whether it is over or not. -/
theorem victories_counted (h : rules.Campaign run combats run') :
    run'.stats.combatsWon = run.stats.combatsWon + combats.countP (·.contains .victory) ∧
      ∀ combat, run'.combat = some combat →
        (combat.phase.isTerminal → run'.Shares combat) ∧ run'.leaveCombat.2.Shares combat :=
  ⟨h.kept.wins, fun combat hc =>
    ⟨h.kept.shares combat hc, Run.shares_leaveCombat hc (h.kept.shares combat hc)⟩⟩

end Rules

/-! ## The bolt once more -/

/-- The run after the combat was won, the turn could not be ended, and another combat was begun. -/
def boltAgain : Run := boltRules.after boltPlayed.leaveCombat.2 (.start ["dummy"])

/-- The combat that was won is counted once, and the one that is left is not counted. -/
theorem Rules.victories_counted_bolt :
    (∃ combats, boltRules.Campaign boltRun combats boltAgain ∧
      combats = [[.playerTurn], [.victory, .victory, .playerTurn]] ∧
        boltAgain.stats.combatsWon = 1) ∧
      boltAgain.leaveCombat.2.health = 10 := by
  have hrejected : boltRules.perform boltPlayed .endTurn =
      .ok (some (.action (.wrongPhase .victory)), boltRules.after boltPlayed .endTurn) :=
    perform_eq_of_answer (by decide +kernel)
  have hsame := run_of_rejected hrejected
  rw [hsame] at hrejected
  have hagain : boltRules.perform boltPlayed.leaveCombat.2 (.start ["dummy"]) =
      .ok (none, boltAgain) := perform_eq_of_answer (by decide +kernel)
  have hcampaign : ∃ combats, boltRules.Campaign boltRun combats boltAgain ∧
      combats = [[.playerTurn], [.victory, .victory, .playerTurn]] :=
    ⟨_, .next (.next (.next (.next (.next (.begin rfl) (.called bolt_starts))
      (.called bolt_strikes)) (.called hrejected)) .left) (.called hagain), by decide +kernel⟩
  obtain ⟨combats, hcampaign, rfl⟩ := hcampaign
  obtain ⟨hwins, hhealth⟩ := victories_counted hcampaign
  have hsome : boltAgain.combat.isSome = true := by decide +kernel
  obtain ⟨combat, hc⟩ := Option.isSome_iff_exists.mp hsome
  have hplayer : boltAgain.combat.map (·.player.health) = some 10 := by decide +kernel
  rw [hc] at hplayer
  exact ⟨⟨_, hcampaign, rfl, hwins⟩,
    (hhealth combat hc).2.health.trans (Option.some.inj hplayer)⟩

end CardCombat
