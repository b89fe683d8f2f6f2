import CardCombat.Proofs.Action.Upkeep

/-!
# What takes energy below zero

What a play costs is there when the play begins, and a loss of energy takes no more than there is.
But a gain by a negative amount takes more, and so does energy for the next turn that is less than
nothing: neither is stopped at zero. Such an effect overdraws. Everything else that happens in a
combat leaves energy where there was some.

## Main definitions

* `Resources.Solvent` -- there is energy left, in this turn and for the next one.
* `Effect.Overdraws` -- an effect that can take energy below zero.
* `StaysSolvent` -- there is energy left after, if there was any before.

## Main results

* `Effect.not_overdraws_lose`, `.not_overdraws_gain`, `.not_overdraws_energyNextTurn` -- effects
  that leave energy.
* `staysSolvent_prevails` -- effects leave energy if none of them overdraws.
* `Effect.overdraws_iff` -- the effects that overdraw are those that leave some combat insolvent.
-/

namespace CardCombat

/-! ## Solvency -/

/-- There is energy left, in this turn and for the next one. -/
structure Resources.Solvent (resources : Resources) : Prop where
  energy : 0 ≤ resources.energy
  maxEnergy : 0 ≤ resources.maxEnergy
  refill : 0 ≤ resources.maxEnergy + resources.energyNextTurn

/-- The effect can take energy below zero, in this turn or for the next one, where there is some
left. -/
inductive Effect.Overdraws : Effect → Prop
  | energy {value change combat ctx amount energy delta} (hs : combat.resources.Solvent)
      (hv : Value.resolve combat ctx value = .ok amount)
      (h : Change.of change combat.resources.energy amount = .ok energy)
      (hd : Signed.sub energy combat.resources.energy = .ok delta) (hn : energy < 0) :
      Overdraws (.energy value change)
  | energyNextTurn {value combat ctx amount energyNextTurn} (hs : combat.resources.Solvent)
      (hv : Value.resolve combat ctx value = .ok amount)
      (h : Signed.add combat.resources.energyNextTurn amount = .ok energyNextTurn)
      (hn : combat.resources.maxEnergy + energyNextTurn < 0) :
      Overdraws (.energyNextTurn value)

/-- An amount that never comes to less than zero. -/
def Value.Nonneg (value : Value) : Prop :=
  ∀ {combat ctx amount}, value.resolve combat ctx = .ok amount → 0 ≤ amount

namespace Effect

variable {value : Value}

/-- No loss overdraws. -/
theorem not_overdraws_lose : ¬Overdraws (.energy value .lose) := by
  intro h
  cases h with
  | energy hs hv h hd hn =>
      obtain ⟨difference, -, h⟩ := bind_eq_ok.mp h
      obtain rfl := Except.ok.inj h
      omega

/-- A gain does not overdraw if it is never negative. -/
theorem not_overdraws_gain (hvalue : value.Nonneg) : ¬Overdraws (.energy value .gain) := by
  intro h
  cases h with
  | energy hs hv h hd hn =>
      obtain ⟨-, rfl⟩ := Signed.add_eq_ok_iff.mp h
      have hamount := hvalue hv
      have henergy := hs.energy
      omega

/-- Energy for the next turn does not overdraw if it is never negative. -/
theorem not_overdraws_energyNextTurn (hvalue : value.Nonneg) :
    ¬Overdraws (.energyNextTurn value) := by
  intro h
  cases h with
  | energyNextTurn hs hv h hn =>
      obtain ⟨-, rfl⟩ := Signed.add_eq_ok_iff.mp h
      have hamount := hvalue hv
      have hrefill := hs.refill
      omega

end Effect

/-- From one scene to another there is energy left, if there was any. -/
def StaysSolvent (s t : Scene) : Prop :=
  s.combat.resources.Solvent → t.combat.resources.Solvent

namespace StaysSolvent

variable {rules : Rules} {may : Effect → Prop} {s t : Scene}

theorem flow : Resolution.Flow StaysSolvent :=
  ⟨fun _ h => h, fun h h' hs => h' (h hs)⟩

theorem of_same (h : t.combat.resources = s.combat.resources) : StaysSolvent s t := by
  unfold StaysSolvent
  rw [h]
  exact id

theorem of_setCombatant (id : CombatantId) (combatant : Combatant) :
    StaysSolvent s (s.setCombatant id combatant) := by
  obtain ⟨player, enemies, hcombat⟩ := s.combat_setCombatant id combatant
  exact of_same (by rw [hcombat])

theorem of_damages {source target : CombatantId} {outcome : DamageReport}
    (h : Damages source target outcome s t) : StaysSolvent s t := by
  cases h with
  | mk => exact flow.trans (of_setCombatant _ _) (of_same rfl)

/-- **A step leaves energy** if no effect overdraws that may be carried out. -/
theorem of_step (hno : ∀ effect, may effect → ¬effect.Overdraws) (h : Step rules may s t) :
    StaysSolvent s t := by
  cases h with
  | altered hc h => exact flow.trans (of_setCombatant _ _) (of_same (by rw [Scene.tell_eq]))
  | damaged h => exact of_damages h
  | @energy change amount energy events h he hmay =>
      intro hs
      obtain ⟨value, hmay, ctx, hvalue⟩ := hmay
      have hleft : 0 ≤ energy := by
        rcases he with ⟨rfl, -⟩ | ⟨delta, -, hsub, -⟩
        · exact hs.energy
        · by_contra hn
          exact hno _ hmay (.energy hs hvalue h hsub (Int.not_le.mp hn))
      rw [Scene.tell_eq]
      exact ⟨hleft, hs.maxEnergy, hs.refill⟩
  | @energyNextTurn amount energyNextTurn hn h hmay =>
      intro hs
      obtain ⟨value, hmay, ctx, hvalue⟩ := hmay
      have hleft : 0 ≤ s.combat.resources.maxEnergy + energyNextTurn := by
        by_contra hn
        exact hno _ hmay (.energyNextTurn hs hvalue h (Int.not_le.mp hn))
      exact ⟨hs.energy, hs.maxEnergy, hleft⟩
  | gold => exact of_same (by rw [Scene.tell_eq])
  | changed =>
      refine of_same ?_
      exact Combat.same_modifyCard Combat.resources fun _ _ => rfl
  | drew | told | acted | shuffled | reshuffled | drawn | milled | moved | brought | removed | sent
  | recalled | issued | created | asked | offered => exact of_same rfl

theorem of_blow (h : Blow rules s t) : StaysSolvent s t := by
  cases h with
  | damaged h => exact of_damages h
  | setHealth | executed => exact flow.trans (of_setCombatant _ _) (of_same rfl)
  | died | counted | acted | buried => exact of_same rfl

theorem of_opens {card : Card} (h : Opens card s t) : StaysSolvent s t := by
  cases h with
  | mk => exact of_same rfl

theorem of_closes {uid : CardUid} (h : Closes rules uid s t) : StaysSolvent s t := by
  obtain ⟨inPlay, discardPile, exhaustPile, told, written, rfl⟩ := h.scene_eq
  exact of_same rfl

theorem of_upkeep (h : Upkeep rules s t) : StaysSolvent s t := by
  cases h with
  | decayed | eased | bared | moved => exact of_setCombatant _ _
  | declared =>
      have hdrawn (rng : Rng) : StaysSolvent s { s with rng } := of_same rfl
      exact flow.trans (hdrawn _) (of_setCombatant _ _)
  | charged | discharged => exact fun hs => ⟨hs.energy, hs.maxEnergy, hs.refill⟩
  | told | released | turned => exact of_same rfl

/-- A card that was paid for with what was there leaves energy. -/
theorem of_enters {card : Card} {cost : Int} (hcost : cost ≤ s.combat.resources.energy)
    (h : Enters card cost s t) : StaysSolvent s t := by
  cases h with
  | mk htake hpays =>
      cases hpays with
      | nothing => exact of_same rfl
      | energy hsub =>
          obtain ⟨-, rfl⟩ := Signed.sub_eq_ok_iff.mp hsub
          exact fun hs => ⟨Int.sub_nonneg_of_le hcost, hs.maxEnergy, hs.refill⟩

/-- The energy of a new turn is what was kept for it. -/
theorem of_refills {energy : Int} (h : s.Refills energy) :
    StaysSolvent s (s.playerBegins energy) := by
  intro hs
  obtain ⟨-, rfl⟩ := Signed.add_eq_ok_iff.mp h
  exact ⟨hs.refill, hs.maxEnergy, (Int.add_zero _).symm ▸ hs.maxEnergy⟩

end StaysSolvent

/-- **Effects leave energy** if none of them overdraws. -/
theorem staysSolvent_prevails {rules : Rules} {may : Effect → Prop}
    (hno : ∀ effect, may effect → ¬effect.Overdraws) : Prevails rules may StaysSolvent :=
  ⟨StaysSolvent.flow, StaysSolvent.of_step hno, StaysSolvent.of_blow, StaysSolvent.of_opens,
    StaysSolvent.of_closes⟩

namespace Resolution

variable {s : Scene} {value : Value} {ctx : Context} {amount : Int}

/-- Energy that is changed, with the event that tells of it. -/
theorem run_energy_of_ne {change : Change} {energy delta : Int}
    (hv : value.resolve s.combat ctx = .ok amount)
    (h : change.of s.combat.resources.energy amount = .ok energy)
    (hd : Signed.sub energy s.combat.resources.energy = .ok delta)
    (hne : energy ≠ s.combat.resources.energy) :
    (Resolution.energy value change ctx).run s =
      .ok ((), (s.withResources { s.combat.resources with energy }).report
        (.energy delta energy)) := by
  refine run_bind_iff.mpr ⟨amount, s, run_amount_iff.mpr ⟨hv, rfl⟩, ?_⟩
  simp only [run_bind_iff, run_combat_iff, run_lift_iff, run_setResources_iff]
  refine ⟨_, _, ⟨rfl, rfl⟩, energy, _, ⟨h, rfl⟩, (), _, rfl, ?_⟩
  rw [if_pos (bne_iff_ne.mpr hne)]
  exact run_bind_iff.mpr ⟨delta, _, run_lift_iff.mpr ⟨hd, rfl⟩, run_report_iff.mpr rfl⟩

/-- Energy that is kept for the next turn, with the event that tells of it. -/
theorem run_energyNextTurn_of_ne {energyNextTurn : Int}
    (hv : value.resolve s.combat ctx = .ok amount)
    (h : Signed.add s.combat.resources.energyNextTurn amount = .ok energyNextTurn)
    (hne : amount ≠ 0) :
    (Resolution.energyNextTurn value ctx).run s =
      .ok ((), (s.withResources { s.combat.resources with energyNextTurn }).report
        (.energyNextTurn amount)) := by
  refine run_bind_iff.mpr ⟨amount, s, run_amount_iff.mpr ⟨hv, rfl⟩, ?_⟩
  rw [if_pos (bne_iff_ne.mpr hne)]
  simp only [run_bind_iff, run_combat_iff, run_lift_iff, run_setResources_iff, run_report_iff]
  exact ⟨_, _, ⟨rfl, rfl⟩, energyNextTurn, _, ⟨h, rfl⟩, (), _, rfl, rfl⟩

end Resolution

open Resolution

/-- **An effect overdraws exactly if it takes some combat below zero** by itself, with nothing
carried out that is nested in it. -/
theorem Effect.overdraws_iff {rules : Rules} {effect : Effect} :
    effect.Overdraws ↔ ∃ s ctx t, s.combat.resources.Solvent ∧
      (dispatch rules skip ctx effect).run s = .ok ((), t) ∧ ¬t.combat.resources.Solvent := by
  have hscene (combat : Combat) : ∃ s : Scene, s.combat = combat :=
    ⟨{ combat, gold := 0, stats := {}, relics := [], rng := .ofSeed 0 }, rfl⟩
  constructor
  · intro h
    cases h with
    | @energy _ _ combat ctx _ energy _ hs hv h hd hn =>
        obtain ⟨s, rfl⟩ := hscene combat
        have hleft := hs.energy
        have hrun := run_energy_of_ne hv h hd (by omega)
        exact ⟨s, ctx, _, hs, hrun, fun ht => absurd ht.energy (Int.not_le.mpr hn)⟩
    | @energyNextTurn _ combat ctx amount energyNextTurn hs hv h hn =>
        obtain ⟨s, rfl⟩ := hscene combat
        have hleft := hs.refill
        have hne : amount ≠ 0 := by
          rintro rfl
          obtain ⟨-, rfl⟩ := Signed.add_eq_ok_iff.mp h
          omega
        have hrun := run_energyNextTurn_of_ne hv h hne
        exact ⟨s, ctx, _, hs, hrun, fun ht => absurd ht.refill (Int.not_le.mpr hn)⟩
  · rintro ⟨s, ctx, t, hs, hrun, ht⟩
    by_contra hno
    have hcarries : Carries rules (¬Effect.Overdraws ·) skip StaysSolvent :=
      (staysSolvent_prevails fun _ => id).carries skip
        fun _ _ => Ensures.pure StaysSolvent.flow ()
    exact ht ((hcarries.dispatch hno).rel hrun hs)

end CardCombat
