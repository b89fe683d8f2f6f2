import CardCombat.Proofs.Outcome.Phases
import CardCombat.Proofs.Outcome.Waiting
import CardCombat.Proofs.Resolution.Total
import Mathlib.Data.List.Dedup
import Mathlib.Data.List.Perm.Subperm

/-!
# What a player can always do

In a combat that waits for the player something can be done: a selection can be answered if there
are as many different cards among its candidates as it asks for, and without a selection the turn
can be ended unless a quantity leaves its range on the way. A selection with too few different
candidates cannot be answered at all, and since nothing else can be done while it waits, the combat
is stuck. It takes candidates that lie there twice.

## Main definitions

* `Selection.different` -- the number of different candidates.
* `Rules.Unblocked` -- the player can end the turn, or answer the selection that waits.

## Main results

* `Selection.answerable_iff` -- which selections have an answer.
* `Rules.unblocked_iff` -- when the player can do something.
-/

namespace CardCombat

open Resolution

variable {rules : Rules} {s t : Scene}

/-! ## Answers -/

namespace Selection

variable {selection : Selection} {chosen : List CardUid}

/-- How many different cards there are among the candidates. -/
def different (selection : Selection) : Nat := (selection.candidates.map (·.uid)).dedup.length

theorem isCandidate_iff {uid : CardUid} :
    selection.isCandidate uid ↔ uid ∈ selection.candidates.map (·.uid) := by
  unfold isCandidate
  rw [List.any_eq_true, List.mem_map]
  simp only [beq_iff_eq]

/-- An answer names different candidates, as many as it is asked for. -/
theorem check_eq_ok_iff : selection.check chosen = .ok () ↔
    selection.min ≤ chosen.length ∧ chosen.length ≤ selection.max ∧
      (∀ uid ∈ chosen, uid ∈ selection.candidates.map (·.uid)) ∧ chosen.Nodup := by
  have hall : chosen.find? (!selection.isCandidate ·) = none ↔
      ∀ uid ∈ chosen, uid ∈ selection.candidates.map (·.uid) := by
    rw [List.find?_eq_none]
    simp only [Bool.not_eq_true', Bool.not_eq_false, isCandidate_iff]
  unfold check
  rw [← hall]
  split
  case isTrue hnumber =>
    rw [Bool.or_eq_true, decide_eq_true_iff, decide_eq_true_iff] at hnumber
    exact iff_of_false nofun fun ⟨hmin, hmax, _⟩ => by omega
  case isFalse hnumber =>
    rw [Bool.or_eq_true, decide_eq_true_iff, decide_eq_true_iff] at hnumber
    split
    case h_1 uid hfound =>
      exact iff_of_false nofun fun ⟨_, _, hnone, _⟩ => absurd (hnone.symm.trans hfound) nofun
    case h_2 hnone =>
      split
      case isTrue hnodup => exact iff_of_true rfl ⟨by omega, by omega, hnone, hnodup⟩
      case isFalse hdouble => exact iff_of_false nofun fun ⟨_, _, _, hnodup⟩ => hdouble hnodup

/-- **A selection has an answer** exactly if there are as many different cards among its candidates
as it asks for. -/
theorem answerable_iff (hbounds : selection.min ≤ selection.max) :
    (∃ chosen, selection.check chosen = .ok ()) ↔ selection.min ≤ selection.different := by
  constructor
  · rintro ⟨chosen, hcheck⟩
    obtain ⟨hmin, -, hcandidates, hnodup⟩ := check_eq_ok_iff.mp hcheck
    have hsub : chosen.Subperm (selection.candidates.map (·.uid)).dedup :=
      List.subperm_of_subset hnodup fun uid hmem => List.mem_dedup.mpr (hcandidates uid hmem)
    exact Nat.le_trans hmin (List.Subperm.length_le hsub)
  · intro henough
    unfold different at henough
    generalize hdifferent : (selection.candidates.map (·.uid)).dedup = different at henough
    have hsub : (different.take selection.max).Sublist different := List.take_sublist _ _
    have hlength : (different.take selection.max).length = Min.min selection.max different.length :=
      List.length_take
    refine ⟨different.take selection.max, check_eq_ok_iff.mpr
      ⟨by omega, by omega, fun uid hmem => ?_, ?_⟩⟩
    · rw [← List.mem_dedup, hdifferent]
      exact hsub.subset hmem
    · exact (hdifferent ▸ List.nodup_dedup _).sublist hsub

end Selection

/-! ## Selections that wait -/

/-- A selection that waits asks for no more cards than it allows. -/
def Combat.Offers (combat : Combat) : Prop :=
  ∀ selection, combat.pending = some selection → selection.min ≤ selection.max

/-! ## Nobody falls while a selection is answered -/

/-- A combat is decided or not by who lives. -/
theorem Combat.isDecided_congr {before after : Combat}
    (hplayer : after.player.isAlive = before.player.isAlive)
    (hliving : after.livingEnemies.length = before.livingEnemies.length) :
    after.isDecided = before.isDecided := by
  have hempty (combat : Combat) :
      combat.livingEnemies.isEmpty = decide (combat.livingEnemies.length = 0) := by
    cases combat.livingEnemies <;> rfl
  unfold isDecided
  rw [hplayer, hempty, hempty, hliving]

theorem Spares.isDecided (h : Spares s t) : t.combat.isDecided = s.combat.isDecided :=
  Combat.isDecided_congr (h.isAlive .player) h.living

theorem settleSelection_spares (selection : Selection) (chosen : List CardUid) :
    Ensures Spares (settleSelection rules selection chosen) :=
  settleSelection_ensures Spares.flow (fun h => @Course.spares rules Effect.Any _ _ h)
    (fun _ => .of_aside rfl rfl rfl rfl rfl)
    (fun _ _ s card _ => ((Spares.flow.refl s).arrive card _ .bottom).report (by simp)) chosen

/-! ## Combats in order -/

/-- Whoever is there, the phase and the selection that waits are as they should be. -/
structure Combat.Orderly (combat : Combat) : Prop where
  sound : combat.Everyone (Fit Effect.Any (0 ≤ ·.health))
  settled : combat.Settled
  offers : combat.Offers

/-- What those do who show a combat leaves it in order. -/
theorem Combat.Orderly.attend {combat : Combat} (h : combat.Orderly) (events : Array Event)
    (locked : Bool) : Combat.Orderly { combat with events, locked } :=
  ⟨h.sound, ⟨h.settled.defeat, h.settled.victory, h.settled.playerTurn, h.settled.enemyTurn⟩,
    h.offers⟩

/-- In the player's turn neither side is beaten. -/
theorem Combat.Settled.not_isDecided {combat : Combat} (h : combat.Settled)
    (hhealth : 0 ≤ combat.player.health) (hturn : combat.phase = .playerTurn) :
    combat.isDecided = false := by
  obtain ⟨hhurt, hgoing⟩ := h.playerTurn.mp hturn
  have halive : combat.player.isAlive = true := Combatant.isAlive_iff.mpr (by omega)
  have hliving : combat.livingEnemies ≠ [] := fun hnone => hgoing ⟨halive, hnone⟩
  simp [isDecided, halive, hliving]

namespace Rules

variable {run started before after : Run} {call : Call} {combat : Combat} {selection : Selection}
  {chosen : List CardUid}

theorem offers_of_accepted
    (hbefore : (∀ enemies, call ≠ .start enemies) → before.InCombat Combat.Offers)
    (hcall : rules.perform before call = .ok (none, after)) : after.InCombat Combat.Offers :=
  asks_of_accepted (fun h => h.bounds) hbefore hcall

/-- **An accepted call leaves the combat in order.** -/
theorem orderly_of_accepted
    (hbefore : (∀ enemies, call ≠ .start enemies) → before.InCombat Combat.Orderly)
    (hcall : rules.perform before call = .ok (none, after)) : after.InCombat Combat.Orderly := by
  have hsound (hother : ∀ enemies, call ≠ .start enemies) : Sound before :=
    fun combat hc => (hbefore hother combat hc).sound
  have hoffers (hother : ∀ enemies, call ≠ .start enemies) : before.InCombat Combat.Offers :=
    fun combat hc => (hbefore hother combat hc).offers
  intro combat hc
  refine ⟨sound_of_accepted hsound hcall combat hc, ?_, offers_of_accepted hoffers hcall combat hc⟩
  obtain ⟨combat', hc', hsettled⟩ := settled_after hsound hcall
  exact Option.some.inj (hc'.symm.trans hc) ▸ hsettled

/-- From its start on a combat is in order. -/
theorem orderly_of_reaches {enemies : List String}
    (hstart : rules.perform run (.start enemies) = .ok (none, started))
    (h : rules.Reaches started after) : after.InCombat Combat.Orderly :=
  inCombat_of_reaches orderly_of_accepted (fun events locked h => h.attend events locked) hstart h

end Rules

/-! ## Calls that are accepted -/

/-- What was resolved is concluded. -/
theorem Run.advance_eq_conclude {run : Run} {m : Resolution Unit} (hs : run.scene? = some s)
    (hrun : m.run s = .ok ((), t)) : run.advance m = (run.withScene t).conclude := by
  unfold advance resolve
  rw [hs]
  dsimp only
  rw [hrun]
  rfl

/-- A resolution that leaves both sides standing is carried out. -/
theorem Run.advance_of_run {run : Run} {m : Resolution Unit} (hs : run.scene? = some s)
    (hrun : m.run s = .ok ((), t)) (hturn : t.combat.phase = .playerTurn)
    (hgoing : t.combat.isDecided = false) : run.advance m = .ok (run.withScene t) := by
  have hended : t.combat.endIfDecided = (none, t.combat) := by
    obtain ⟨halive, hliving⟩ := Bool.or_eq_false_iff.mp hgoing
    unfold Combat.endIfDecided
    rw [hturn, halive, hliving]
    rfl
  rw [advance_eq_conclude hs hrun]
  unfold conclude withScene
  dsimp only
  rw [hended, hturn]
  rfl

namespace Rules

variable {run started run' : Run} {combat : Combat} {selection : Selection} {chosen : List CardUid}

/-- The player can do something in the combat that goes on: end the turn, or, if a selection waits,
answer it. -/
def Unblocked (rules : Rules) (run : Run) (combat : Combat) : Prop :=
  (combat.pending = none → ∃ run', rules.perform run .endTurn = .ok (none, run')) ∧
    ∀ selection, combat.pending = some selection →
      ∃ chosen run', rules.perform run (.select chosen) = .ok (none, run')

section Select

variable (hc : run.combat = some combat) (hturn : combat.checkTurn = .ok ())
  (hpending : combat.pending = some selection)

include hc hturn hpending

/-- The cards that were named are checked, and then they are dealt with. -/
theorem answerSelection_eq (chosen : List CardUid) : rules.answerSelection run chosen =
    (selection.check chosen).mapError (fun reason => .rejected (.invalidSelection reason)) >>=
      fun _ => (run.advance (settleSelection rules selection chosen) :
        Except (Failure ActionError) Run) := by
  unfold answerSelection
  rw [Run.currentCombat_eq_ok_iff.mpr hc]
  change (do (combat.checkTurn : Except (Failure ActionError) Unit); _) = _
  rw [hturn, hpending]
  dsimp only
  cases selection.check chosen <;> rfl

/-- What is no answer is rejected. -/
theorem perform_select_of_error {reason : ChoiceError}
    (hcheck : selection.check chosen = .error reason) : rules.perform run (.select chosen) =
      .ok (some (.action (.invalidSelection reason)), run) := by
  have hanswer := @answerSelection_eq rules _ _ _ hc hturn hpending chosen
  rw [hcheck] at hanswer
  exact congrArg (Failure.reply .action run) hanswer

/-- An answer is carried out. -/
theorem perform_select_of_ok (hcheck : selection.check chosen = .ok ()) :
    rules.perform run (.select chosen) = (do
      let run' ← run.advance (settleSelection rules selection chosen)
      return (none, run')) := by
  have hanswer := @answerSelection_eq rules _ _ _ hc hturn hpending chosen
  rw [hcheck] at hanswer
  refine (congrArg (Failure.reply .action run) hanswer).trans ?_
  cases run.advance (settleSelection rules selection chosen) <;> rfl

end Select

/-- What is done with the chosen cards leaves the combat going as it was. -/
theorem exists_settled (hc : run.combat = some combat) (selection : Selection)
    (chosen : List CardUid) : ∃ s t, run.scene? = some s ∧ s.combat = combat ∧
      s.stats = run.stats ∧ (settleSelection rules selection chosen).run s = .ok ((), t) ∧
        t.combat.phase = combat.phase ∧ Spares s t := by
  let s : Scene :=
    { combat, gold := run.gold, stats := run.stats, relics := run.relics, rng := run.rng }
  have hs : run.scene? = some s := by
    unfold Run.scene?
    rw [hc]
    rfl
  obtain ⟨⟨⟩, t, hrun⟩ := @settleSelection_total rules selection chosen s
  exact ⟨s, t, hs, rfl, rfl, hrun,
    (samePhase_governs.settleSelection (fun _ => rfl) (fun _ _ _ _ _ => rfl) _).rel hrun,
    (settleSelection_spares selection chosen).rel hrun⟩

/-- **A correct answer is accepted** in the player's turn, as long as nobody is beaten. -/
theorem select_accepted (hc : run.combat = some combat) (hturn : combat.checkTurn = .ok ())
    (hgoing : combat.isDecided = false) (hpending : combat.pending = some selection)
    (hcheck : selection.check chosen = .ok ()) :
    ∃ run', rules.perform run (.select chosen) = .ok (none, run') := by
  obtain ⟨s, t, hs, rfl, -, hrun, hphase, hspared⟩ := @exists_settled rules _ _ hc selection chosen
  have hadvance := Run.advance_of_run hs hrun
    (hphase.trans (Combat.checkTurn_eq_ok_iff.mp hturn).1) (hspared.isDecided.trans hgoing)
  rw [perform_select_of_ok hc hturn hpending hcheck]
  exact ⟨_, bind_eq_ok.mpr ⟨_, hadvance, rfl⟩⟩

/-- An answer that is accepted was correct. -/
theorem check_of_accepted (hc : run.combat = some combat)
    (hpending : combat.pending = some selection)
    (h : rules.perform run (.select chosen) = .ok (none, run')) :
    selection.check chosen = .ok () := by
  obtain ⟨s, t, m, hm, -⟩ := undertakes_of_accepted h
  cases hm with
  | @select _ combat' selection' hcurrent _ hp hcheck =>
      have hsame : some s.combat = some combat :=
        (Run.currentCombat_eq_ok_iff.mp hcurrent).symm.trans hc
      rw [Option.some.inj hsame, hpending] at hp
      exact Option.some.inj hp ▸ hcheck

/-- The end of a turn is not rejected when the player may act and no selection waits. -/
theorem endTurn_answer (hready : run.readyCombat = .ok combat) {answer : Option Rejection × Run}
    (h : rules.perform run .endTurn = .ok answer) : answer.1 = none := by
  unfold perform endTurn at h
  rw [hready] at h
  change Failure.reply .action run (run.advance (passTurn rules) : Except (Failure ActionError) Run)
    = _ at h
  cases hadvance : run.advance (passTurn rules) with
  | error cause =>
      rw [hadvance] at h
      exact absurd h nofun
  | ok run' =>
      rw [hadvance] at h
      exact Except.ok.inj h ▸ rfl

/-- **The player can do something** in an unlocked combat that waits for it exactly if the selection
that waits has as many different candidates as it asks for, and, without one, if no quantity leaves
its range before the next turn. -/
theorem unblocked_iff {enemies : List String}
    (hstart : rules.perform run (.start enemies) = .ok (none, started))
    (h : rules.Reaches started run') (hc : run'.combat = some combat)
    (hturn : combat.phase = .playerTurn) (hlocked : combat.locked = false) :
    rules.Unblocked run' combat ↔
      (combat.pending = none → ∃ answer, rules.perform run' .endTurn = .ok answer) ∧
        ∀ selection, combat.pending = some selection → selection.min ≤ selection.different := by
  obtain ⟨hsound, hsettled, hoffers⟩ := orderly_of_reaches hstart h combat hc
  have hcheck : combat.checkTurn = .ok () := Combat.checkTurn_eq_ok_iff.mpr ⟨hturn, hlocked⟩
  have hgoing : combat.isDecided = false := hsettled.not_isDecided hsound.1.1 hturn
  constructor
  · rintro ⟨hend, hselect⟩
    refine ⟨fun hnone => (hend hnone).imp' (none, ·) fun _ hperform => hperform, ?_⟩
    intro selection hpending
    obtain ⟨chosen, after, hperform⟩ := hselect selection hpending
    refine (Selection.answerable_iff (hoffers selection hpending)).mp ⟨chosen, ?_⟩
    exact check_of_accepted hc hpending hperform
  · rintro ⟨hend, hdifferent⟩
    constructor
    · intro hnone
      obtain ⟨⟨rejection, after⟩, hperform⟩ := hend hnone
      have hready : run'.readyCombat = .ok combat :=
        Run.readyCombat_eq_ok_iff.mpr ⟨hc, Combat.checkReady_eq_ok_iff.mpr ⟨hturn, hlocked, hnone⟩⟩
      obtain rfl : rejection = none := endTurn_answer hready hperform
      exact ⟨after, hperform⟩
    · intro selection hpending
      obtain ⟨chosen, hanswer⟩ :=
        (Selection.answerable_iff (hoffers selection hpending)).mpr (hdifferent selection hpending)
      exact ⟨chosen, select_accepted hc hcheck hgoing hpending hanswer⟩

/-- When the combat against the dummy has begun, the turn can be ended. -/
theorem unblocked_of_bolt :
    ∃ combat, boltStarted.combat = some combat ∧ boltRules.Unblocked boltStarted combat := by
  have hstate : boltStarted.combat.map (fun combat =>
      (combat.phase, combat.locked, combat.pending)) = some (.playerTurn, false, none) := by
    decide +kernel
  obtain ⟨combat, hc, hstate⟩ := Option.map_eq_some_iff.mp hstate
  obtain ⟨hturn, hstate⟩ := Prod.mk.inj hstate
  obtain ⟨hlocked, hpending⟩ := Prod.mk.inj hstate
  have hend : boltRules.perform boltStarted .endTurn =
      .ok (none, boltRules.after boltStarted .endTurn) :=
    perform_eq_of_answer (by decide +kernel)
  refine ⟨combat, hc, (unblocked_iff bolt_starts .refl hc hturn hlocked).mpr
    ⟨fun _ => ⟨_, hend⟩, fun selection hsome => ?_⟩⟩
  rw [hpending] at hsome
  exact absurd hsome nofun

end Rules

/-! ## A selection without an answer -/

/-- A card that puts itself on the deck twice and then has two cards of the draw pile banished. -/
def snarePack : Pack where
  cards :=
    [{ id := "snare", name := "Snare", theme := .skill, cost := .fixed 0
       effects := [.putOnDeck .thisCard .top, .putOnDeck .thisCard .top,
         .banish (.fixed 2) .drawPile true] }]
  enemies := [{ id := "dummy", name := "Dummy", maxHealth := 8, moves := [] }]

def snareRules : Rules where
  content := (Content.ofPack snarePack).toOption.getD {}

/-- A run with that card. -/
def snareRun : Run where
  hero := ""
  health := 10
  maxHealth := 10
  deck := [{ uid := ⟨1⟩, definition := "snare" }]
  rng := .ofSeed 0

/-- The run after a combat has begun. -/
def snareStarted : Run := snareRules.after snareRun (.start ["dummy"])

/-- The run after the card was played. -/
def snarePlayed : Run := snareRules.after snareStarted (.play ⟨1⟩ none)

theorem snare_starts :
    snareRules.perform snareRun (.start ["dummy"]) = .ok (none, snareStarted) :=
  Rules.perform_eq_of_answer (by decide +kernel)

theorem snare_played :
    snareRules.perform snareStarted (.play ⟨1⟩ none) = .ok (none, snarePlayed) :=
  Rules.perform_eq_of_answer (by decide +kernel)

namespace Rules

/-- A selection can be without an answer: two cards are to be banished, and both candidates are the
same card. -/
theorem snare_blocks :
    ¬∀ pack config content run enemies started run' combat, Content.ofPack pack = .ok content →
      (run.deck.map (·.uid)).Nodup →
        Rules.perform { content, config } run (.start enemies) = .ok (none, started) →
          Rules.Reaches { content, config } started run' → run'.combat = some combat →
            combat.phase = .playerTurn → combat.locked = false →
              Rules.Unblocked { content, config } run' combat := by
  intro hclaim
  have hstate : snarePlayed.combat.map (fun combat => (combat.phase, combat.locked,
      combat.pending.map fun selection => (selection.min, selection.max, selection.different))) =
        some (.playerTurn, false, some (2, 2, 1)) := by
    decide +kernel
  obtain ⟨combat, hc, hstate⟩ := Option.map_eq_some_iff.mp hstate
  obtain ⟨hturn, hstate⟩ := Prod.mk.inj hstate
  obtain ⟨hlocked, hpending⟩ := Prod.mk.inj hstate
  obtain ⟨selection, hpending, hbounds⟩ := Option.map_eq_some_iff.mp hpending
  obtain ⟨hmin, hbounds⟩ := Prod.mk.inj hbounds
  obtain ⟨hmax, hdifferent⟩ := Prod.mk.inj hbounds
  have hunblocked : snareRules.Unblocked snarePlayed combat :=
    hclaim snarePack {} snareRules.content snareRun ["dummy"] snareStarted snarePlayed combat
      rfl (by decide) snare_starts (.call .refl snare_played) hc hturn hlocked
  obtain ⟨chosen, run', hperform⟩ := hunblocked.2 selection hpending
  have hcheck : selection.check chosen = .ok () := check_of_accepted hc hpending hperform
  have henough := (Selection.answerable_iff (by omega)).mp ⟨chosen, hcheck⟩
  omega

end Rules

end CardCombat
