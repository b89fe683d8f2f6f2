import CardCombat.Proofs.Isolation.Confined

/-!
# Effects that concern one enemy

An effect that nests no others disturbs nobody but those that its aim finds, whoever carries it out,
and what happens in answer to it. The answers are effects of that kind themselves, aimed at one of
those between whom they are, so the levels of answers to answers are gone through by induction: none
of them gets away from the player and the one enemy.

## Main results

* `Resolution.plain_confined` -- a plain effect is confined to the enemy that it finds.
* `Resolution.within_staysBetween` -- personal effects are confined at any depth.
-/

namespace CardCombat.Resolution

variable {rules : Rules} {nested : List Effect → Context → Resolution Unit} {ctx : Context}
  {who : CombatantId} {s t : Scene} {aim : Aim} {a : Unit}

/-! ## Everyone who is aimed at -/

/-- Something is done to everyone who is aimed at. -/
theorem targets_confined {f : CombatantId → Resolution Unit}
    (hfound : ∀ id ∈ aim.candidates s.combat ctx, Involves who id)
    (hf : ∀ {id}, Involves who id → Ensures (Confined who) (f id))
    (h : (do (← targets aim ctx).forM f).run s = .ok (a, t)) : Confined who s t := by
  obtain ⟨ids, _, hids, h⟩ := run_bind_iff.mp h
  obtain ⟨rfl, rfl⟩ := run_targets_iff.mp hids
  have hdrawn (rng : Rng) : Confined who s { s with rng } := .of_same rfl rfl
  refine Confined.flow.trans (hdrawn _) ((Ensures.forM Confined.flow fun id hmem => ?_).rel h)
  exact hf (hfound id (Aim.mem_candidates_of_mem_find hmem))

theorem forTargets_confined {act : CombatantId → Combatant → Resolution Unit}
    (hfound : ∀ id ∈ aim.candidates s.combat ctx, Involves who id)
    (hact : ∀ {id c s a t}, Involves who id → s.combat.combatant? id = some c →
      (act id c).run s = .ok (a, t) → Confined who s t)
    (h : (forTargets aim ctx act).run s = .ok (a, t)) : Confined who s t := by
  refine targets_confined hfound (fun {id} hid => ⟨fun {s a t} h => ?_⟩) h
  obtain ⟨_, _, hlook, h⟩ := run_bind_iff.mp h
  obtain ⟨rfl, rfl⟩ := run_combatant?_iff.mp hlook
  split at h
  case h_1 c hc => exact hact hid hc h
  case h_2 =>
    obtain ⟨-, rfl⟩ := run_pure_iff.mp h
    exact Confined.flow.refl s

/-! ## Plain effects -/

section Effects

variable (hfound : ∀ id ∈ aim.candidates s.combat ctx, Involves who id)

include hfound

theorem heal_confined {amount : Value} {overheal : Bool}
    (h : (heal amount aim overheal ctx).run s = .ok (a, t)) : Confined who s t := by
  obtain ⟨_, _, hamount, h⟩ := run_bind_iff.mp h
  obtain ⟨-, rfl⟩ := run_amount_iff.mp hamount
  refine forTargets_confined hfound (fun {id c s a t} hid hc h => ?_) h
  simp only [run_bind_iff, run_lift_iff, run_setCombatant_iff, run_if_report_iff] at h
  obtain ⟨⟨healed, after⟩, _, ⟨hheal, rfl⟩, _, _, rfl, rfl⟩ := h
  exact (Confined.of_setCombatant hid hc (Combatant.heal_sameLife hheal).id).tell _

theorem destroyBlock_confined {includeBarrier : Bool}
    (h : (destroyBlock aim includeBarrier ctx).run s = .ok (a, t)) : Confined who s t := by
  refine forTargets_confined hfound (fun {id c s a t} hid hc h => ?_) h
  have hbared (barrier : Int) : Confined who s (s.setCombatant id { c with block := 0, barrier }) :=
    .of_setCombatant hid hc rfl
  cases includeBarrier with
  | true =>
      simp only [if_true, run_bind_iff, run_lift_iff, run_setCombatant_iff,
        run_if_report_iff] at h
      obtain ⟨removed, _, ⟨-, rfl⟩, _, _, rfl, rfl⟩ := h
      exact (hbared 0).tell _
  | false =>
      simp only [Bool.false_eq_true, if_false, run_bind_iff, run_pure_iff, run_setCombatant_iff,
        run_if_report_iff] at h
      obtain ⟨removed, _, ⟨-, rfl⟩, _, _, rfl, rfl⟩ := h
      exact (hbared c.barrier).tell _

theorem weakenIntent_confined {amount : Value}
    (h : (weakenIntent amount aim ctx).run s = .ok (a, t)) : Confined who s t := by
  obtain ⟨_, _, hamount, h⟩ := run_bind_iff.mp h
  obtain ⟨-, rfl⟩ := run_amount_iff.mp hamount
  split at h
  case isTrue =>
    refine forTargets_confined hfound (fun {id c s a t} hid hc h => ?_) h
    dsimp only at h
    split at h
    case h_1 enemy intent he hi =>
      simp only [run_bind_iff, run_lift_iff, run_setCombatant_iff, run_report_iff] at h
      obtain ⟨weakened, _, ⟨-, rfl⟩, _, _, rfl, rfl⟩ := h
      have hset (enemy : EnemyRole) :
          Confined who s (s.setCombatant id { c with enemy := some enemy }) :=
        .of_setCombatant hid hc rfl
      exact (hset _).report _
    case h_2 =>
      obtain ⟨-, rfl⟩ := run_pure_iff.mp h
      exact Confined.flow.refl s
  case isFalse =>
    obtain ⟨-, rfl⟩ := run_pure_iff.mp h
    exact Confined.flow.refl _

theorem applyPower_confined {power : PowerId} {amount : Value} {duration : Option Int}
    (h : (applyPower rules power amount aim duration ctx).run s = .ok (a, t)) :
    Confined who s t := by
  obtain ⟨_, _, hamount, h⟩ := run_bind_iff.mp h
  obtain ⟨-, rfl⟩ := run_amount_iff.mp hamount
  split at h
  case isTrue =>
    refine targets_confined hfound (fun {id} hid => ⟨fun {s a t} h => ?_⟩) h
    rcases given_of_run h with rfl | ⟨before, after, applied, hc, -, -, happly, rfl⟩
    · exact Confined.flow.refl s
    · have hsame := (Combatant.applyPower_sameButPowers happly).id
      exact (Confined.of_setCombatant hid hc hsame).tell _
  case isFalse =>
    obtain ⟨-, rfl⟩ := run_pure_iff.mp h
    exact Confined.flow.refl _

theorem removePower_confined {power : PowerId} {amount : Option Value}
    (h : (removePower rules power amount aim ctx).run s = .ok (a, t)) : Confined who s t := by
  obtain ⟨_, _, hamount, h⟩ := run_bind_iff.mp h
  obtain rfl := looks_amount? amount hamount
  refine targets_confined hfound (fun {id} hid => ⟨fun {s a t} h => ?_⟩) h
  obtain ⟨taken, h⟩ := run_discard_iff.mp h
  rcases taken_of_run h with rfl | ⟨before, after, held, left, hc, -, -, hremove, rfl⟩
  · exact Confined.flow.refl s
  · have hsame := (Combatant.removePower_sameButPowers hremove).id
    exact (Confined.of_setCombatant hid hc hsame).tell _

variable (hpowers : rules.content.powers.Personal) (hnested : StaysBetween nested who)
  (hsource : Involves who ctx.source)

include hpowers hnested hsource

theorem block_confined {amount : Value}
    (h : (block rules nested amount aim ctx).run s = .ok (a, t)) : Confined who s t := by
  obtain ⟨_, _, hamount, h⟩ := run_bind_iff.mp h
  obtain ⟨-, rfl⟩ := run_amount_iff.mp hamount
  obtain ⟨gained, _, hgained, h⟩ := run_bind_iff.mp h
  obtain ⟨-, rfl⟩ := blockGained_of_run hgained
  split at h
  case isTrue =>
    refine forTargets_confined hfound (fun {id c s a t} hid hc h => ?_) h
    simp only [run_bind_iff, run_lift_iff, run_setCombatant_iff, run_report_iff] at h
    obtain ⟨block, _, ⟨-, rfl⟩, _, _, rfl, _, _, rfl, h⟩ := h
    have hset : Confined who s (s.setCombatant id { c with block }) :=
      .of_setCombatant hid hc rfl
    exact Confined.flow.trans (hset.report _) (react_confined hpowers hnested hid hsource h)
  case isFalse =>
    obtain ⟨-, rfl⟩ := run_pure_iff.mp h
    exact Confined.flow.refl _

theorem setHealth_confined {amount : Value}
    (h : (setHealth rules nested amount aim ctx).run s = .ok (a, t)) : Confined who s t := by
  obtain ⟨_, _, hamount, h⟩ := run_bind_iff.mp h
  obtain ⟨-, rfl⟩ := run_amount_iff.mp hamount
  refine forTargets_confined hfound (fun {id c s a t} hid hc h => ?_) h
  simp only [run_bind_iff, run_lift_iff, run_setCombatant_iff, run_report_iff] at h
  obtain ⟨after, _, ⟨hset, rfl⟩, _, _, rfl, _, _, rfl, h⟩ := h
  have hchanged : Confined who s (s.setCombatant id after) :=
    .of_setCombatant hid hc (Combatant.setHealth_spec hset).1
  split at h
  · exact Confined.flow.trans (hchanged.report _) (die_confined hpowers hnested hid hsource h)
  · obtain ⟨-, rfl⟩ := run_pure_iff.mp h
    exact hchanged.report _

/-- A hit on whoever is found, with no other effects nested in it. -/
theorem damage_confined {amount : Value} {element : Element} (he : element ≠ .lightning)
    {piercing : Bool} (h : (damage rules nested amount aim element piercing [] ctx).run s =
      .ok (a, t)) : Confined who s t := by
  obtain ⟨_, _, hamount, h⟩ := run_bind_iff.mp h
  obtain ⟨-, rfl⟩ := run_amount_iff.mp hamount
  refine targets_confined hfound (fun {id} hid => ⟨fun {s a t} h => ?_⟩) h
  obtain ⟨outcome, h⟩ := run_discard_iff.mp h
  rcases hit_of_run hpowers hnested hsource hid he h with ⟨-, rfl⟩ | ⟨-, u, v, hsu, hnone, hvt⟩
  · exact Confined.flow.refl s
  · obtain ⟨-, rfl⟩ := run_pure_iff.mp hnone
    exact Confined.flow.trans hsu hvt

/-- **A plain effect** disturbs nobody but the player and the one enemy, if it finds nobody else and
none but them carries it out. -/
theorem plain_confined {effect : Effect} (h : effect.Plain aim)
    (hrun : (dispatch rules nested ctx effect).run s = .ok (a, t)) : Confined who s t := by
  cases h with
  | damage amount he piercing =>
      exact damage_confined hfound hpowers hnested hsource he hrun
  | block => exact block_confined hfound hpowers hnested hsource hrun
  | setHealth => exact setHealth_confined hfound hpowers hnested hsource hrun
  | heal => exact heal_confined hfound hrun
  | destroyBlock => exact destroyBlock_confined hfound hrun
  | weakenIntent => exact weakenIntent_confined hfound hrun
  | applyPower => exact applyPower_confined hfound hrun
  | removePower => exact removePower_confined hfound hrun

end Effects

/-- **Personal effects** stay between the player and the one enemy, however deeply they answer to
each other. -/
theorem within_staysBetween (hpowers : rules.content.powers.Personal) (levels : Nat) :
    StaysBetween (within rules skip levels) who := by
  induction levels with
  | zero => exact fun _ _ _ _ => Ensures.pure Confined.flow ()
  | succ levels ih =>
      refine fun effects ctx heffects hctx => Ensures.forM Confined.flow fun effect hmem => ?_
      have key {aim : Aim} (ha : aim = .self ∨ aim = .source) (h : effect.Plain aim) :
          Ensures (Confined who) (dispatch rules (within rules skip levels) ctx effect) :=
        ⟨plain_confined (fun id hid => hctx.involves ha hid) hpowers ih hctx.source h⟩
      exact (heffects effect hmem).elim (key (.inl rfl)) (key (.inr rfl))

end CardCombat.Resolution
