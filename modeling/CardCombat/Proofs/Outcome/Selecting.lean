import CardCombat.Proofs.Outcome.Answers
import CardCombat.Proofs.Outcome.Playable
import CardCombat.Proofs.Outcome.Victories

/-!
# What becomes of an answer

A selection is answered by naming different candidates of it, as many as it asks for. The answer is
taken as a set: the candidates that were named are dealt with in the order in which they were
offered, so the order in which they are named makes no difference.

Nothing can go wrong with an answer. If the combat was won already, which it is not in any run that
calls lead to, then the victory is counted, and there has to be room for it.

## Main definitions

* `Selection.Answers` -- what it takes to answer a selection.
* `Combat.IsWon` -- the enemies are beaten, and the player is not.

## Main results

* `Rules.selects_by_members` -- exactly the answers are accepted, and what comes of them is up to
  the cards that they name.
-/

namespace CardCombat

open Resolution

variable {rules : Rules} {s t : Scene} {run run' : Run} {combat : Combat} {selection : Selection}
  {chosen chosen' : List CardUid}

/-! ## Answers -/

namespace Selection

/-- The cards that were named answer the selection. -/
structure Answers (selection : Selection) (chosen : List CardUid) : Prop where
  nodup : chosen.Nodup
  candidates : ∀ uid ∈ chosen, ∃ card ∈ selection.candidates, card.uid = uid
  enough : selection.min ≤ chosen.length
  notTooMany : chosen.length ≤ selection.max

/-- **The check lets exactly the answers pass.** -/
theorem check_eq_ok_iff_answers : selection.check chosen = .ok () ↔ selection.Answers chosen := by
  rw [check_eq_ok_iff]
  simp only [List.mem_map]
  constructor
  · rintro ⟨henough, hmany, hcandidates, hnodup⟩
    exact ⟨hnodup, hcandidates, henough, hmany⟩
  · rintro ⟨hnodup, hcandidates, henough, hmany⟩
    exact ⟨henough, hmany, hcandidates, hnodup⟩

instance (selection : Selection) (chosen : List CardUid) : Decidable (selection.Answers chosen) :=
  decidable_of_iff _ (check_eq_ok_iff.symm.trans check_eq_ok_iff_answers)

/-- Named in another order, the cards still answer the selection. -/
theorem Answers.of_perm (h : selection.Answers chosen) (hperm : chosen.Perm chosen') :
    selection.Answers chosen' where
  nodup := hperm.nodup_iff.mp h.nodup
  candidates uid hmem := h.candidates uid (hperm.mem_iff.mpr hmem)
  enough := hperm.length_eq ▸ h.enough
  notTooMany := hperm.length_eq ▸ h.notTooMany

end Selection

/-- **What is done with the chosen cards** is up to which ones they are. -/
theorem Resolution.settleSelection_congr (hmembers : ∀ uid, uid ∈ chosen ↔ uid ∈ chosen') :
    settleSelection rules selection chosen = settleSelection rules selection chosen' := by
  have hcontains (uid : CardUid) : chosen.contains uid = chosen'.contains uid := by
    rw [Bool.eq_iff_iff, List.contains_iff_mem, List.contains_iff_mem, hmembers]
  unfold settleSelection
  simp only [hcontains]

/-! ## The end of a call -/

/-- The enemies are beaten, and the player is not. -/
def Combat.IsWon (combat : Combat) : Prop :=
  combat.player.isAlive = true ∧ combat.livingEnemies = []

/-- Where nobody falls nothing is won. -/
theorem Spares.isWon_iff (h : Spares s t) : t.combat.IsWon ↔ s.combat.IsWon := by
  have hplayer : t.combat.player.isAlive = s.combat.player.isAlive := h.isAlive .player
  unfold Combat.IsWon
  rw [hplayer, ← List.length_eq_zero_iff, ← List.length_eq_zero_iff, h.living]

namespace Run

/-- **A combat that goes on can be concluded** as long as there is room for another victory. -/
theorem exists_conclude_iff (hc : run.combat = some combat) (hturn : combat.phase = .playerTurn) :
    (∃ run', run.conclude = .ok run') ↔
      (combat.IsWon → run.stats.combatsWon + 1 < 1 <<< 64) := by
  have hgoing : combat.phase.isTerminal = false := by rw [hturn]; rfl
  unfold conclude
  rw [hc]
  dsimp only
  rw [hgoing]
  cases halive : combat.player.isAlive with
  | false =>
      have hended : combat.endIfDecided = (some .defeat, { combat with phase := .defeat }) := by
        simp [Combat.endIfDecided, hgoing, halive]
      rw [hended]
      exact iff_of_true ⟨_, rfl⟩ fun hwon => absurd (halive.symm.trans hwon.1) nofun
  | true =>
      cases hliving : combat.livingEnemies with
      | cons enemy enemies =>
          have hended : combat.endIfDecided = (none, combat) := by
            simp [Combat.endIfDecided, hgoing, halive, hliving]
          rw [hended]
          exact iff_of_true ⟨_, rfl⟩ fun hwon => absurd (hliving.symm.trans hwon.2) nofun
      | nil =>
          have hended : combat.endIfDecided =
              (some .victory, { combat with phase := .victory }) := by
            simp [Combat.endIfDecided, hgoing, halive, hliving]
          rw [hended]
          constructor
          · rintro ⟨run', h⟩ -
            obtain ⟨combatsWon, hcount, -⟩ := bind_eq_ok.mp h
            exact (Unsigned.add_eq_ok_iff.mp hcount).1
          · intro hroom
            have hcount := Unsigned.add_eq_ok_iff.mpr ⟨hroom ⟨halive, hliving⟩, rfl⟩
            exact ⟨_, bind_eq_ok.mpr ⟨_, hcount, rfl⟩⟩

end Run

namespace Rules

/-- Nothing can go wrong with an answer but the count of victories. -/
theorem exists_advance_iff (hc : run.combat = some combat) (hturn : combat.checkTurn = .ok ())
    (selection : Selection) (chosen : List CardUid) :
    (∃ run', run.advance (settleSelection rules selection chosen) = .ok run') ↔
      (combat.IsWon → run.stats.combatsWon + 1 < 1 <<< 64) := by
  obtain ⟨s, t, hs, rfl, hstats, hrun, hphase, hspared⟩ :=
    @exists_settled rules _ _ hc selection chosen
  have hwins : t.stats.combatsWon = s.stats.combatsWon :=
    (SameWins.governs.settleSelection (fun _ => rfl) (fun _ _ _ _ _ => rfl) _).rel hrun
  rw [Run.advance_eq_conclude hs hrun, Run.exists_conclude_iff rfl
    (hphase.trans (Combat.checkTurn_eq_ok_iff.mp hturn).1), hspared.isWon_iff, ← hstats, ← hwins]
  rfl

/-- **Exactly the answers are accepted**, whatever else is named is rejected, and what comes of an
answer is up to the cards that it names. If the combat was won before it was answered, there has to
be room to count the victory. -/
theorem selects_by_members (rules : Rules) (hc : run.combat = some combat)
    (hturn : combat.phase = .playerTurn) (hlocked : combat.locked = false)
    (hpending : combat.pending = some selection) :
    (∀ chosen, rules.Rejects run (.select chosen) ↔ ¬selection.Answers chosen) ∧
      (∀ chosen, (∃ run', rules.perform run (.select chosen) = .ok (none, run')) ↔
        selection.Answers chosen ∧ (combat.IsWon → run.stats.combatsWon + 1 < 1 <<< 64)) ∧
      ∀ chosen chosen', selection.Answers chosen → chosen'.Nodup →
        (∀ uid, uid ∈ chosen ↔ uid ∈ chosen') →
          rules.perform run (.select chosen) = rules.perform run (.select chosen') := by
  have hready : combat.checkTurn = .ok () := Combat.checkTurn_eq_ok_iff.mpr ⟨hturn, hlocked⟩
  have hcarried {chosen : List CardUid} (hanswers : selection.Answers chosen) :
      rules.perform run (.select chosen) = (do
        let run' ← run.advance (settleSelection rules selection chosen)
        return (none, run')) :=
    perform_select_of_ok hc hready hpending (Selection.check_eq_ok_iff_answers.mpr hanswers)
  refine ⟨fun chosen => ?_, fun chosen => ?_, fun chosen chosen' hanswers hnodup hmembers => ?_⟩
  · constructor
    · rintro ⟨rejection, run', hperform⟩ hanswers
      obtain ⟨_, -, hreply⟩ := bind_eq_ok.mp ((hcarried hanswers).symm.trans hperform)
      exact absurd (Prod.mk.inj (Except.ok.inj hreply)).1 nofun
    · intro hnot
      cases hcheck : selection.check chosen with
      | ok => exact absurd (Selection.check_eq_ok_iff_answers.mp hcheck) hnot
      | error reason => exact ⟨_, _, perform_select_of_error hc hready hpending hcheck⟩
  · rw [← exists_advance_iff hc hready selection chosen]
    constructor
    · rintro ⟨run', hperform⟩
      have hanswers := Selection.check_eq_ok_iff_answers.mp (check_of_accepted hc hpending hperform)
      obtain ⟨after, hadvance, -⟩ := bind_eq_ok.mp ((hcarried hanswers).symm.trans hperform)
      exact ⟨hanswers, after, hadvance⟩
    · rintro ⟨hanswers, after, hadvance⟩
      exact ⟨after, (hcarried hanswers).trans (bind_eq_ok.mpr ⟨after, hadvance, rfl⟩)⟩
  · have hperm : chosen.Perm chosen' :=
      (List.perm_ext_iff_of_nodup hanswers.nodup hnodup).mpr hmembers
    rw [hcarried hanswers, hcarried (hanswers.of_perm hperm), settleSelection_congr hmembers]

end Rules

/-! ## Two cards to throw away -/

/-- A card for which the player throws two other cards away. -/
def siftPack : Pack where
  cards :=
    [{ id := "sift", name := "Sift", theme := .skill, cost := .fixed 0
       effects := [.discard (.fixed 2) .hand true] },
     { id := "ward", name := "Ward", theme := .skill, cost := .fixed 1
       effects := [.block (.fixed 5) .self] }]
  enemies := [{ id := "dummy", name := "Dummy", maxHealth := 8, moves := [] }]

def siftRules : Rules where
  content := (Content.ofPack siftPack).toOption.getD {}

/-- A run with that card and three others. -/
def siftRun : Run where
  hero := ""
  health := 10
  maxHealth := 10
  deck :=
    [{ uid := ⟨1⟩, definition := "sift" }, { uid := ⟨2⟩, definition := "ward" },
     { uid := ⟨3⟩, definition := "ward" }, { uid := ⟨4⟩, definition := "ward" }]
  rng := .ofSeed 0

/-- The run after a combat has begun. -/
def siftStarted : Run := siftRules.after siftRun (.start ["dummy"])

/-- The run after the card was played. -/
def siftPlayed : Run := siftRules.after siftStarted (.play ⟨1⟩ none)

namespace Rules

/-- Any two of the three cards can be thrown away, in any order, but no card can be thrown away
twice. -/
theorem sift_selects_by_members :
    (∃ run', siftRules.perform siftPlayed (.select [⟨2⟩, ⟨4⟩]) = .ok (none, run')) ∧
      siftRules.perform siftPlayed (.select [⟨2⟩, ⟨4⟩]) =
        siftRules.perform siftPlayed (.select [⟨4⟩, ⟨2⟩]) ∧
      siftRules.Rejects siftPlayed (.select [⟨2⟩, ⟨2⟩]) := by
  have hstate : siftPlayed.combat.map (fun combat => (combat.phase, combat.locked,
      combat.livingEnemies.length, combat.pending.map fun selection =>
        (decide (selection.Answers [⟨2⟩, ⟨4⟩]), decide (selection.Answers [⟨2⟩, ⟨2⟩])))) =
      some (.playerTurn, false, 1, some (true, false)) := by
    decide +kernel
  obtain ⟨combat, hc, hstate⟩ := Option.map_eq_some_iff.mp hstate
  obtain ⟨hturn, hstate⟩ := Prod.mk.inj hstate
  obtain ⟨hlocked, hstate⟩ := Prod.mk.inj hstate
  obtain ⟨hliving, hpending⟩ := Prod.mk.inj hstate
  obtain ⟨selection, hpending, hchosen⟩ := Option.map_eq_some_iff.mp hpending
  obtain ⟨hanswers, hdouble⟩ := Prod.mk.inj hchosen
  have hanswers := of_decide_eq_true hanswers
  obtain ⟨hrejects, haccepts, hmembers⟩ :=
    selects_by_members siftRules hc hturn hlocked hpending
  refine ⟨(haccepts _).mpr ⟨hanswers, fun hwon => ?_⟩, ?_,
    (hrejects _).mpr (of_decide_eq_false hdouble)⟩
  · rw [hwon.2] at hliving
    exact absurd hliving nofun
  · exact hmembers _ _ hanswers (by decide) fun uid => by simp [or_comm]

end Rules

end CardCombat
