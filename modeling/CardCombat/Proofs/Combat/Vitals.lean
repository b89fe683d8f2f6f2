import CardCombat.Proofs.Combat.Combatants
import CardCombat.Effect.Basic

/-!
# The numbers of combatants

Health, greatest health, block and barrier are changed by a handful of operations only. Whatever
happens to these numbers in a combat is a `Wear` of the combatant, and what every wear keeps is kept
in the combat: that no health is negative, for one, and that all four numbers stay in their range.

Health stays below the greatest health unless somebody may be healed beyond it.

## Main definitions

* `Wear` -- how the numbers of a combatant change.
* `Combatant.Vital` -- the four numbers are in their range.

## Main results

* `Wear.health_nonneg`, `Wear.vital` -- what every wear keeps.
-/

namespace CardCombat

namespace Combatant

/-- Health, greatest health, block and barrier. -/
def vitals (combatant : Combatant) : Int × Int × Int × Int :=
  (combatant.health, combatant.maxHealth, combatant.block, combatant.barrier)

/-- The numbers are in their range; health is `bounded` by the greatest health or not. -/
structure Vital (bounded : Prop) (combatant : Combatant) : Prop where
  health : 0 ≤ combatant.health
  maxHealth : 1 ≤ combatant.maxHealth
  block : 0 ≤ combatant.block
  barrier : 0 ≤ combatant.barrier
  bounded : bounded → combatant.health ≤ combatant.maxHealth

/-- Health need not be bounded. -/
theorem Vital.unbounded {bounded : Prop} {combatant : Combatant} (h : combatant.Vital bounded) :
    combatant.Vital False := ⟨h.health, h.maxHealth, h.block, h.barrier, False.elim⟩

end Combatant

/-! ## Wear -/

/-- How the numbers of a combatant change by effects that `may` be carried out. -/
inductive Wear (may : Effect → Prop) (before : Combatant) : Combatant → Prop
  | kept {after} (h : after.vitals = before.vitals) : Wear may before after
  | heal {after amount overheal healed}
      (hmay : overheal = true → ∃ value target, may (.heal value target true))
      (h : before.heal amount overheal = .ok (healed, after)) : Wear may before after
  | block {gained block} (hg : 0 < gained) (h : Signed.add before.block gained = .ok block) :
      Wear may before { before with block }
  | barrier {gained barrier} (hg : 0 < gained)
      (h : Signed.add before.barrier gained = .ok barrier) :
      Wear may before { before with barrier }
  | bare (alsoBarrier : Bool) : Wear may before
      { before with block := 0, barrier := if alsoBarrier then 0 else before.barrier }
  | maxHealth {after delta} (h : before.changeMaxHealth delta = .ok after) : Wear may before after
  | setHealth {after value} (h : before.setHealth value = .ok after) : Wear may before after
  | damage {after amount piercing outcome}
      (h : before.takeDamage amount piercing = .ok (outcome, after)) : Wear may before after

namespace Wear

variable {may : Effect → Prop} {before after : Combatant}

/-- **No health becomes negative.** -/
theorem health_nonneg (h : Wear may before after) (hb : 0 ≤ before.health) : 0 ≤ after.health := by
  cases h with
  | kept h => exact (Prod.mk.inj h).1 ▸ hb
  | heal _ h =>
      obtain ⟨health, rfl, -, hpos, -⟩ := Combatant.heal_spec h
      exact hpos hb
  | maxHealth h =>
      obtain ⟨health, maxHealth, rfl, -, -, hpos, -⟩ := Combatant.changeMaxHealth_spec h
      exact hpos
  | setHealth h =>
      obtain ⟨health, rfl, hpos, -⟩ := Combatant.setHealth_parts h
      exact hpos
  | damage h =>
      obtain ⟨block, barrier, health, rfl, -, hpos, -⟩ := Combatant.takeDamage_parts h
      exact hpos
  | block | barrier | bare => exact hb

/-- **The numbers stay in their range**, with health below the greatest health if nothing that may
be carried out heals beyond it. -/
theorem vital {bounded : Prop} (h : Wear may before after)
    (hmay : bounded → ∀ value target, ¬may (.heal value target true))
    (hb : before.Vital bounded) : after.Vital bounded := by
  obtain ⟨hhealth, hmax, hblock, hbarrier, hbound⟩ := hb
  cases h with
  | kept h =>
      obtain ⟨h₁, h⟩ := Prod.mk.inj h
      obtain ⟨h₂, h⟩ := Prod.mk.inj h
      obtain ⟨h₃, h₄⟩ := Prod.mk.inj h
      exact ⟨h₁ ▸ hhealth, h₂ ▸ hmax, h₃ ▸ hblock, h₄ ▸ hbarrier, h₁ ▸ h₂ ▸ hbound⟩
  | @heal _ amount overheal healed hover h =>
      obtain ⟨health, rfl, -, hpos, hle⟩ := Combatant.heal_spec h
      refine ⟨hpos hhealth, hmax, hblock, hbarrier, fun hbounded => ?_⟩
      have hplain : overheal = false := by
        rw [Bool.eq_false_iff]
        intro htrue
        obtain ⟨value, target, hoverheals⟩ := hover htrue
        exact hmay hbounded value target hoverheals
      have hroom := hbound hbounded
      have hhealed := hle hplain
      dsimp only
      omega
  | block hg h =>
      obtain ⟨-, rfl⟩ := Signed.add_eq_ok_iff.mp h
      exact ⟨hhealth, hmax, by dsimp only; omega, hbarrier, hbound⟩
  | barrier hg h =>
      obtain ⟨-, rfl⟩ := Signed.add_eq_ok_iff.mp h
      exact ⟨hhealth, hmax, hblock, by dsimp only; omega, hbound⟩
  | bare alsoBarrier =>
      refine ⟨hhealth, hmax, Int.le_refl 0, ?_, hbound⟩
      cases alsoBarrier with
      | true => exact Int.le_refl 0
      | false => exact hbarrier
  | maxHealth h =>
      obtain ⟨health, maxHealth, rfl, -, hmax, hpos, hle⟩ := Combatant.changeMaxHealth_spec h
      exact ⟨hpos, hmax, hblock, hbarrier, fun _ => hle⟩
  | setHealth h =>
      obtain ⟨health, rfl, hpos, hle, -⟩ := Combatant.setHealth_parts h
      exact ⟨hpos, hmax, hblock, hbarrier, fun _ => hle⟩
  | damage h =>
      obtain ⟨block, barrier, health, rfl, -, hpos, hle, hb, hb'⟩ := Combatant.takeDamage_parts h
      refine ⟨hpos, hmax, hb hblock, hb' hbarrier, fun hbounded => ?_⟩
      have hroom := hbound hbounded
      dsimp only
      omega

end Wear

end CardCombat
