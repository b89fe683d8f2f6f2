import CardCombat.Proofs.Action.Upkeep
import CardCombat.Proofs.Combat.Vitals

/-!
# Who is touched

Every step of a resolution touches one combatant at most, in one of a few ways, or it takes the dead
away; and it leaves the phase of the combat alone. So what is to hold of all combatants throughout a
combat has to be looked at for one combatant and one kind of wear only.

## Main definitions

* `Worn` -- how a combatant is changed by a step.
* `Touches` -- what a step does to the combatants.

## Main results

* `Step.touches`, `Blow.touches`, `Upkeep.touches` and the like -- the kinds of steps.
-/

namespace CardCombat

/-! ## Changes of a combatant -/

namespace Combatant

/-- The declared move of the combatant has no effects but those that `may` be carried out. -/
def Intends (may : Effect → Prop) (combatant : Combatant) : Prop :=
  ∀ intent, combatant.intent = some intent → ∀ effect ∈ intent.effects, may effect

variable {may : Effect → Prop} {before after : Combatant}

theorem Intends.of_enemy (h : after.enemy = before.enemy) (hb : before.Intends may) :
    after.Intends may := by
  unfold Intends Combatant.intent
  rw [h]
  exact hb

theorem decay_sameButPowers {catalog : Catalog PowerDefinition} {boundary : Boundary}
    {ticks : List Decayed} (h : before.decay catalog boundary = .ok (ticks, after)) :
    SameButPowers before after := by
  obtain ⟨lowered, -, h⟩ := bind_eq_ok.mp h
  obtain ⟨-, rfl⟩ := Prod.mk.inj (Except.ok.inj h)
  exact ⟨_, rfl⟩

end Combatant

/-- How a combatant is changed by a step: its numbers wear, and what it intends to do may still be
carried out. -/
structure Worn (may : Effect → Prop) (before after : Combatant) : Prop where
  wear : Wear may before after
  intends : before.Intends may → after.Intends may

namespace Worn

variable {may : Effect → Prop} {before after : Combatant}

/-- The enemy behind the combatant is left alone. -/
theorem of_enemy (hwear : Wear may before after) (h : after.enemy = before.enemy) :
    Worn may before after := ⟨hwear, .of_enemy h⟩

theorem of_sameButPowers (h : before.SameButPowers after) : Worn may before after := by
  obtain ⟨powers, rfl⟩ := h
  exact .of_enemy (.kept rfl) rfl

theorem of_damage {amount : Int} {piercing : Bool} {outcome : DamageReport}
    (h : before.takeDamage amount piercing = .ok (outcome, after)) : Worn may before after := by
  obtain ⟨block, barrier, health, hafter, -⟩ := Combatant.takeDamage_parts h
  exact .of_enemy (.damage h) (hafter ▸ rfl)

theorem of_setHealth {value : Int} (h : before.setHealth value = .ok after) :
    Worn may before after := by
  obtain ⟨health, hafter, -⟩ := Combatant.setHealth_parts h
  exact .of_enemy (.setHealth h) (hafter ▸ rfl)

theorem of_alteration {rules : Rules} {numbered : Prop} {id : CombatantId} {events : List Event}
    (h : Alteration rules may numbered id before after events) : Worn may before after := by
  cases h with
  | heal hmay h =>
      obtain ⟨health, hafter, -⟩ := Combatant.heal_spec h
      exact .of_enemy (.heal hmay h) (hafter ▸ rfl)
  | block hg h => exact .of_enemy (.block hg h) rfl
  | barrier hg h => exact .of_enemy (.barrier hg h) rfl
  | @destroyBlock includeBarrier => exact .of_enemy (.bare includeBarrier) rfl
  | maxHealth _ h =>
      obtain ⟨health, maxHealth, hafter, -⟩ := Combatant.changeMaxHealth_spec h
      exact .of_enemy (.maxHealth h) (hafter ▸ rfl)
  | setHealth _ h => exact .of_setHealth h
  | @weaken enemy intent amount weakened he hi =>
      refine ⟨.kept rfl, fun hb intent' hintent => ?_⟩
      obtain rfl := Option.some.inj hintent
      refine hb intent ?_
      rw [Combatant.intent, he]
      exact hi
  | givePower _ _ h => exact .of_sameButPowers (Combatant.applyPower_sameButPowers h)
  | leaveStatus _ h => exact .of_sameButPowers (Combatant.applyPower_sameButPowers h)
  | takePower _ _ _ h => exact .of_sameButPowers (Combatant.removePower_sameButPowers h)
  | silence | consume => exact .of_sameButPowers ⟨_, rfl⟩

end Worn

/-! ## Changes of a scene -/

/-- Everything that a combat says of its combatants and of whose turn it is. -/
def Combat.field (combat : Combat) : Phase × Combatant × List Combatant :=
  (combat.phase, combat.player, combat.enemies)

/-- What a step does to the combatants. -/
inductive Touches (may : Effect → Prop) (s t : Scene) : Prop
  | nobody (h : t.combat.field = s.combat.field)
  | someone {id before after} (hc : s.combat.combatant? id = some before)
      (hworn : Worn may before after)
      (h : t.combat.field = (s.combat.setCombatant id after).field)
  | dead (h : t.combat.field = s.combat.reap.2.field)

variable {rules : Rules} {may : Effect → Prop} {s t : Scene}

theorem Scene.field_tell (events : List Event) : (s.tell events).combat.field = s.combat.field := by
  rw [tell_eq]
  rfl

theorem Scene.field_setCombatant (id : CombatantId) (combatant : Combatant) :
    (s.setCombatant id combatant).combat.field = (s.combat.setCombatant id combatant).field := by
  unfold Scene.setCombatant
  split <;> rfl

theorem Combat.field_modifyCard {combat : Combat} (uid : CardUid) (change : Card → Card) :
    (combat.modifyCard uid change).field = combat.field :=
  same_modifyCard field fun _ _ => rfl

/-- Nobody changes the phase. -/
theorem Touches.phase (h : Touches may s t) : t.combat.phase = s.combat.phase := by
  have hset (id : CombatantId) (combatant : Combatant) :
      (s.combat.setCombatant id combatant).phase = s.combat.phase := by
    unfold Combat.setCombatant
    split <;> rfl
  cases h with
  | nobody h => exact (Prod.mk.inj h).1
  | someone hc hworn h => exact (Prod.mk.inj h).1.trans (hset _ _)
  | dead h => exact (Prod.mk.inj h).1

theorem Damages.touches {source target : CombatantId} {outcome : DamageReport}
    (h : Damages source target outcome s t) : Touches may s t := by
  cases h with
  | mk hc h => exact .someone hc (.of_damage h) (Scene.field_setCombatant _ _)

/-- **A plain step** touches one combatant at most. -/
theorem Step.touches (h : Step rules may s t) : Touches may s t := by
  cases h with
  | altered hc h =>
      exact .someone hc (.of_alteration h)
        ((Scene.field_tell _).trans (Scene.field_setCombatant _ _))
  | damaged h => exact h.touches
  | energy | gold => exact .nobody (Scene.field_tell _)
  | changed => exact .nobody (Combat.field_modifyCard _ _)
  | drew | told | acted | energyNextTurn | shuffled | reshuffled | drawn | milled | moved | brought
  | removed | sent | recalled | issued | created | asked | offered => exact .nobody rfl

/-- **A blow** touches one combatant, or takes the dead away. -/
theorem Blow.touches (h : Blow rules s t) : Touches may s t := by
  cases h with
  | damaged h => exact h.touches
  | setHealth hc h => exact .someone hc (.of_setHealth h) (Scene.field_setCombatant _ _)
  | executed hc h => exact .someone hc (.of_setHealth h) (Scene.field_setCombatant _ _)
  | buried => exact .dead rfl
  | died | counted | acted => exact .nobody rfl

theorem Opens.touches {card : Card} (h : Opens card s t) : Touches may s t := by
  cases h with
  | mk => exact .nobody rfl

theorem Closes.touches {uid : CardUid} (h : Closes rules uid s t) : Touches may s t := by
  obtain ⟨inPlay, discardPile, exhaustPile, events, hcombat⟩ := h.combat_eq
  exact .nobody (by rw [hcombat]; rfl)

theorem Enters.touches {card : Card} {cost : Int} (h : Enters card cost s t) :
    Touches may s t := by
  cases h with
  | mk h hp =>
      cases hp with
      | nothing | energy => exact .nobody rfl

/-- **What happens at the boundaries of turns** touches one combatant at most, if enemies can
declare no moves but those that may be carried out. -/
theorem Upkeep.touches (hp : rules.content.Permits may) (h : Upkeep rules s t) :
    Touches may s t := by
  cases h with
  | decayed hc h =>
      exact .someone hc (.of_sameButPowers (Combatant.decay_sameButPowers h))
        (Scene.field_setCombatant _ _)
  | eased hc => exact .someone hc (.of_sameButPowers ⟨_, rfl⟩) (Scene.field_setCombatant _ _)
  | bared hc =>
      exact .someone hc (.of_enemy (.bare false) rfl) (Scene.field_setCombatant _ _)
  | @moved id before moveIndex hc =>
      refine .someone hc ⟨?kept, fun _ intent h => ?_⟩ (Scene.field_setCombatant _ _)
      case kept => exact .kept rfl
      obtain ⟨enemy, henemy, h⟩ := Option.bind_eq_some_iff.mp h
      obtain ⟨role, -, rfl⟩ := Option.map_eq_some_iff.mp henemy
      exact absurd h nofun
  | @declared id before enemy template chosen rng hc he ht hn =>
      refine .someone hc ⟨?kept, fun _ intent h => ?_⟩ (Scene.field_setCombatant _ _)
      case kept => exact .kept rfl
      obtain ⟨moveIndex, -, hintent⟩ : ∃ moveIndex, chosen = some moveIndex ∧
          template.intent? moveIndex = some intent := Option.bind_eq_some_iff.mp h
      obtain ⟨move, hmove, rfl⟩ := Option.map_eq_some_iff.mp hintent
      exact hp.holds (.move (Catalog.mem_values_of_find? ht) (List.mem_of_getElem? hmove))
  | turned =>
      exact .someone Combat.combatant?_player (.of_enemy (.bare false) rfl) rfl
  | told | released | charged | discharged => exact .nobody rfl

end CardCombat
