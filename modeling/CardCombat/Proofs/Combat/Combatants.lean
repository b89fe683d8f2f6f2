import CardCombat.Combat.State
import CardCombat.Proofs.Success
import Mathlib.Data.List.Nodup

/-!
# Finding and setting combatants

What a combat holds after one of its combatants was set to another state of the same combatant: that
combatant is changed, every other one is found as before, and the enemies stand in the same order.

## Main results

* `Combat.combatant?_setCombatant` -- who is found afterwards.
* `Combat.length_livingEnemies_setCombatant` -- how the number of living enemies changes.
* `Combat.combatant?_reap` -- who is found when the dead were taken away.
-/

namespace CardCombat

namespace Combatant

variable {before after : Combatant}

/-! ## Life and death -/

theorem isAlive_iff {combatant : Combatant} : combatant.isAlive = true ↔ 0 < combatant.health :=
  decide_eq_true_iff

theorem not_isAlive_iff {combatant : Combatant} :
    combatant.isAlive = false ↔ combatant.health ≤ 0 := by
  unfold isAlive
  rw [decide_eq_false_iff_not, Int.not_lt]

theorem isAlive_eq_of_health_pos_iff (h : 0 < after.health ↔ 0 < before.health) :
    after.isAlive = before.isAlive :=
  decide_eq_decide.mpr h

/-- The same combatant with the same powers, alive if it was alive before. -/
structure SameLife (before after : Combatant) : Prop where
  id : after.id = before.id
  powers : after.powers = before.powers
  isAlive : after.isAlive = before.isAlive

theorem SameLife.refl (combatant : Combatant) : SameLife combatant combatant := ⟨rfl, rfl, rfl⟩

/-- Healing: the dead stay dead and the living alive, and nobody is healed beyond the greatest
health unless it is meant so. -/
theorem heal_spec {amount healed : Int} {overheal : Bool}
    (h : before.heal amount overheal = .ok (healed, after)) :
    ∃ health, after = { before with health } ∧ (0 < health ↔ 0 < before.health) ∧
      (0 ≤ before.health → 0 ≤ health) ∧
        (overheal = false → health ≤ max before.maxHealth before.health) := by
  unfold heal at h
  split at h
  · obtain ⟨-, rfl⟩ := Prod.mk.inj (Except.ok.inj h)
    exact ⟨before.health, rfl, Iff.rfl, fun h => h, fun _ => Int.le_max_right _ _⟩
  · rename_i hcond
    rw [Bool.or_eq_true, not_or, decide_eq_true_iff] at hcond
    obtain ⟨hamount, halive⟩ := hcond
    have hpos : 0 < before.health := isAlive_iff.mp (by simpa using halive)
    obtain ⟨gained, -, h⟩ := bind_eq_ok.mp h
    obtain ⟨-, rfl⟩ := Prod.mk.inj (Except.ok.inj h)
    refine ⟨_, rfl, ?_, ?_, fun hbounded => ?_⟩
    · unfold Signed.saturate Signed.least Signed.greatest
      split <;> omega
    · unfold Signed.saturate Signed.least Signed.greatest
      split <;> omega
    · rw [hbounded, if_neg Bool.false_ne_true]
      exact Int.min_le_right _ _

/-- The dead are not healed. -/
theorem heal_dead {amount healed : Int} {overheal : Bool} (hd : before.isAlive = false)
    (h : before.heal amount overheal = .ok (healed, after)) : healed = 0 ∧ after = before := by
  unfold heal at h
  rw [hd, if_pos (by simp)] at h
  obtain ⟨rfl, rfl⟩ := Prod.mk.inj (Except.ok.inj h)
  exact ⟨rfl, rfl⟩

/-- Nobody is healed back to life. -/
theorem heal_sameLife {amount healed : Int} {overheal : Bool}
    (h : before.heal amount overheal = .ok (healed, after)) : SameLife before after := by
  obtain ⟨health, rfl, hlife, -⟩ := heal_spec h
  exact ⟨rfl, rfl, isAlive_eq_of_health_pos_iff hlife⟩

theorem clamp_spec {n low high clamped : Int} (h : Signed.clamp n low high = .ok clamped) :
    clamped = max low (min high n) ∧ low ≤ high := by
  unfold Signed.clamp at h
  split at h
  · exact ⟨(Except.ok.inj h).symm, ‹_›⟩
  · exact absurd h nofun

/-- A change of the greatest health: it stays positive, health is brought below it, and nobody dies
or comes back. -/
theorem changeMaxHealth_spec {delta : Int} (h : before.changeMaxHealth delta = .ok after) :
    ∃ health maxHealth, after = { before with health, maxHealth } ∧
      (0 < health ↔ 0 < before.health) ∧ 1 ≤ maxHealth ∧ 0 ≤ health ∧ health ≤ maxHealth := by
  have key {raised maxHealth : Int} (hmax : 1 ≤ maxHealth)
      (hraised : 0 < raised ↔ 0 < before.health) (h : (do
        let health ← Signed.clamp raised 0 maxHealth
        return { before with maxHealth, health }) = Except.ok after) :
      ∃ health maxHealth, after = { before with health, maxHealth } ∧
        (0 < health ↔ 0 < before.health) ∧ 1 ≤ maxHealth ∧ 0 ≤ health ∧ health ≤ maxHealth := by
    obtain ⟨health, hclamp, h⟩ := bind_eq_ok.mp h
    obtain ⟨rfl, -⟩ := clamp_spec hclamp
    exact ⟨_, maxHealth, (Except.ok.inj h).symm, by omega, hmax, by omega, by omega⟩
  unfold changeMaxHealth at h
  obtain ⟨sum, -, h⟩ := bind_eq_ok.mp h
  dsimp only at h
  split at h
  · rename_i hgain
    rw [Bool.and_eq_true, decide_eq_true_iff, isAlive_iff] at hgain
    obtain ⟨raised, hraised, h⟩ := bind_eq_ok.mp h
    obtain ⟨-, rfl⟩ := Signed.add_eq_ok_iff.mp hraised
    exact key (Int.le_max_right sum 1) (by omega) h
  · exact key (Int.le_max_right sum 1) Iff.rfl h

/-- A change of the greatest health neither kills nor brings back. -/
theorem changeMaxHealth_sameLife {delta : Int} (h : before.changeMaxHealth delta = .ok after) :
    SameLife before after := by
  obtain ⟨health, maxHealth, rfl, hlife, -⟩ := changeMaxHealth_spec h
  exact ⟨rfl, rfl, isAlive_eq_of_health_pos_iff hlife⟩

/-- What a guard takes, and what gets past it. -/
theorem absorb_spec {guard remaining used left : Int}
    (h : absorb guard remaining = .ok (used, left)) :
    used = min remaining guard ∧ left = max (remaining - guard) 0 := by
  unfold absorb at h
  obtain ⟨difference, hsub, h⟩ := bind_eq_ok.mp h
  obtain ⟨rfl, rfl⟩ := Prod.mk.inj (Except.ok.inj h)
  obtain ⟨-, rfl⟩ := Signed.sub_eq_ok_iff.mp hsub
  omega

/-- The damage that gets past block and barrier. -/
def unguarded (combatant : Combatant) (amount : Int) (piercing : Bool) : Int :=
  if piercing then max amount 0
  else max (max (max amount 0 - combatant.block) 0 - combatant.barrier) 0

theorem unguarded_nonneg {amount : Int} {piercing : Bool} :
    0 ≤ before.unguarded amount piercing := by
  unfold unguarded
  split <;> exact Int.le_max_right _ 0

/-- What is left after damage: no guard loses more than it was, and health loses what gets past
them. -/
theorem takeDamage_eq {amount : Int} {piercing : Bool} {outcome : DamageReport}
    (h : before.takeDamage amount piercing = .ok (outcome, after)) :
    ∃ fromBlock fromBarrier,
      after = { before with
        block := before.block - fromBlock, barrier := before.barrier - fromBarrier
        health := max (before.health - before.unguarded amount piercing) 0 } ∧
      outcome.killed = (before.isAlive && !after.isAlive) ∧
        fromBlock ≤ max before.block 0 ∧ fromBarrier ≤ max before.barrier 0 := by
  have key {fromBlock fromBarrier damage : Int}
      (hblock : fromBlock ≤ max before.block 0) (hbarrier : fromBarrier ≤ max before.barrier 0)
      (hdamage : damage = before.unguarded amount piercing) (h : (do
        let blocked ← Signed.add fromBlock fromBarrier
        let block ← Signed.sub before.block fromBlock
        let barrier ← Signed.sub before.barrier fromBarrier
        let health := max (← Signed.sub before.health damage) 0
        let hurt := { before with block, barrier, health }
        return (({ blocked, healthLost := min damage (max before.health 0),
                   killed := before.isAlive && !hurt.isAlive } : DamageReport), hurt)) =
          Except.ok (outcome, after)) :
      ∃ fromBlock fromBarrier,
        after = { before with
          block := before.block - fromBlock, barrier := before.barrier - fromBarrier
          health := max (before.health - before.unguarded amount piercing) 0 } ∧
        outcome.killed = (before.isAlive && !after.isAlive) ∧
          fromBlock ≤ max before.block 0 ∧ fromBarrier ≤ max before.barrier 0 := by
    subst hdamage
    obtain ⟨blocked, -, h⟩ := bind_eq_ok.mp h
    obtain ⟨block, hb, h⟩ := bind_eq_ok.mp h
    obtain ⟨-, rfl⟩ := Signed.sub_eq_ok_iff.mp hb
    obtain ⟨barrier, hb, h⟩ := bind_eq_ok.mp h
    obtain ⟨-, rfl⟩ := Signed.sub_eq_ok_iff.mp hb
    obtain ⟨left, hl, h⟩ := bind_eq_ok.mp h
    obtain ⟨-, rfl⟩ := Signed.sub_eq_ok_iff.mp hl
    obtain ⟨rfl, rfl⟩ := Prod.mk.inj (Except.ok.inj h)
    exact ⟨fromBlock, fromBarrier, rfl, rfl, hblock, hbarrier⟩
  unfold takeDamage at h
  cases piercing with
  | true =>
      obtain ⟨⟨fromBlock, damage⟩, h₁, h⟩ := bind_eq_ok.mp h
      obtain ⟨rfl, rfl⟩ := Prod.mk.inj (Except.ok.inj h₁)
      obtain ⟨⟨fromBarrier, damage⟩, h₂, h⟩ := bind_eq_ok.mp h
      obtain ⟨rfl, rfl⟩ := Prod.mk.inj (Except.ok.inj h₂)
      exact key (Int.le_max_right _ _) (Int.le_max_right _ _) rfl h
  | false =>
      obtain ⟨⟨fromBlock, damage⟩, h₁, h⟩ := bind_eq_ok.mp h
      obtain ⟨⟨fromBarrier, damage⟩, h₂, h⟩ := bind_eq_ok.mp h
      obtain ⟨hblock, rfl⟩ := absorb_spec h₁
      obtain ⟨hbarrier, rfl⟩ := absorb_spec h₂
      exact key (by omega) (by omega) rfl h

/-- Damage: nothing that is positive becomes negative by it, health does not rise, and the report
says whether it took the last of it. -/
theorem takeDamage_parts {amount : Int} {piercing : Bool} {outcome : DamageReport}
    (h : before.takeDamage amount piercing = .ok (outcome, after)) :
    ∃ block barrier health, after = { before with block, barrier, health } ∧
      outcome.killed = (before.isAlive && !after.isAlive) ∧ 0 ≤ health ∧
        health ≤ max before.health 0 ∧ (0 ≤ before.block → 0 ≤ block) ∧
          (0 ≤ before.barrier → 0 ≤ barrier) := by
  obtain ⟨fromBlock, fromBarrier, rfl, hkilled, hblock, hbarrier⟩ := takeDamage_eq h
  have hpast : 0 ≤ before.unguarded amount piercing := unguarded_nonneg
  refine ⟨_, _, _, rfl, hkilled, ?_, ?_, ?_, ?_⟩ <;> omega

/-- What damage does to life: the report says whether it took the last of it, and it never gives
any back. -/
theorem takeDamage_spec {amount : Int} {piercing : Bool} {outcome : DamageReport}
    (h : before.takeDamage amount piercing = .ok (outcome, after)) :
    after.id = before.id ∧ after.powers = before.powers ∧
      outcome.killed = (before.isAlive && !after.isAlive) ∧
        (before.isAlive = false → after.isAlive = false) := by
  obtain ⟨block, barrier, health, rfl, hkilled, -, hle, -⟩ := takeDamage_parts h
  refine ⟨rfl, rfl, hkilled, fun hdead => ?_⟩
  rw [not_isAlive_iff] at hdead ⊢
  dsimp only
  omega

/-- Health that is set lies in its range. -/
theorem setHealth_parts {value : Int} (h : before.setHealth value = .ok after) :
    ∃ health, after = { before with health } ∧ 0 ≤ health ∧ health ≤ before.maxHealth ∧
      (value ≤ 0 → health = 0) := by
  obtain ⟨health, hclamp, h⟩ := bind_eq_ok.mp h
  obtain ⟨rfl, hle⟩ := clamp_spec hclamp
  exact ⟨_, (Except.ok.inj h).symm, by omega, by omega, by omega⟩

theorem setHealth_spec {value : Int} (h : before.setHealth value = .ok after) :
    after.id = before.id ∧ after.powers = before.powers ∧
      (value ≤ 0 → after.isAlive = false) := by
  obtain ⟨health, rfl, -, -, hzero⟩ := setHealth_parts h
  refine ⟨rfl, rfl, fun hv => ?_⟩
  rw [not_isAlive_iff]
  exact Int.le_of_eq (hzero hv)

/-! ## Powers -/

/-- The same combatant in all but its powers. -/
def SameButPowers (before after : Combatant) : Prop := ∃ powers, after = { before with powers }

theorem SameButPowers.id (h : SameButPowers before after) : after.id = before.id := by
  obtain ⟨powers, rfl⟩ := h
  rfl

theorem SameButPowers.isAlive (h : SameButPowers before after) :
    after.isAlive = before.isAlive := by
  obtain ⟨powers, rfl⟩ := h
  rfl

theorem applyPower_sameButPowers {catalog : Catalog PowerDefinition} {power : PowerId}
    {amount : Int} {duration applied : Option Int}
    (h : before.applyPower catalog power amount duration = .ok (applied, after)) :
    SameButPowers before after := by
  unfold applyPower at h
  split at h
  · obtain ⟨-, rfl⟩ := Prod.mk.inj (Except.ok.inj h)
    exact ⟨_, rfl⟩
  · obtain ⟨⟨joined, duration⟩, -, h⟩ := bind_eq_ok.mp h
    dsimp only at h
    split at h
    · obtain ⟨-, rfl⟩ := Prod.mk.inj (Except.ok.inj h)
      exact ⟨_, rfl⟩
    · obtain ⟨-, rfl⟩ := Prod.mk.inj (Except.ok.inj h)
      exact ⟨_, rfl⟩

theorem removePower_sameButPowers {catalog : Catalog PowerDefinition} {power : PowerId}
    {amount left : Option Int}
    (h : before.removePower catalog power amount = .ok (left, after)) :
    SameButPowers before after := by
  unfold removePower at h
  split at h
  · obtain ⟨-, rfl⟩ := Prod.mk.inj (Except.ok.inj h)
    exact ⟨_, rfl⟩
  · split at h
    · obtain ⟨-, rfl⟩ := Prod.mk.inj (Except.ok.inj h)
      exact ⟨_, rfl⟩
    · obtain ⟨difference, -, h⟩ := bind_eq_ok.mp h
      split at h
      · obtain ⟨-, rfl⟩ := Prod.mk.inj (Except.ok.inj h)
        exact ⟨_, rfl⟩
      · obtain ⟨-, rfl⟩ := Prod.mk.inj (Except.ok.inj h)
        exact ⟨_, rfl⟩

/-- What modifiers make of an amount is not negative. -/
theorem underModifiers_nonneg {amount modified : Int} {modifiers : List (Int × Modifier)}
    (h : underModifiers amount modifiers = .ok modified) : 0 ≤ modified := by
  obtain ⟨flat, -, h⟩ := bind_eq_ok.mp h
  obtain ⟨sum, -, h⟩ := bind_eq_ok.mp h
  refine foldlM_preserves (P := fun amount : Int => 0 ≤ amount)
    (fun {amount modifier scaled} hscale hamount => ?_) h (Int.le_max_right sum 0)
  unfold scaleBy at hscale
  split at hscale
  · obtain ⟨factor, -, hscale⟩ := bind_eq_ok.mp hscale
    obtain ⟨product, -, hscale⟩ := bind_eq_ok.mp hscale
    exact Except.ok.inj hscale ▸ Int.le_max_right _ 0
  · exact Except.ok.inj hscale ▸ hamount

end Combatant

namespace Combat

variable {combat : Combat} {id other : CombatantId} {before after : Combatant}

/-! ## Replacing -/

theorem map_id_replaceEnemy {enemies : List Combatant} (hid : after.id = id) :
    (replaceEnemy id after enemies).map (·.id) = enemies.map (·.id) := by
  induction enemies with
  | nil => rfl
  | cons enemy enemies ih =>
      unfold replaceEnemy
      split
      case isTrue h => rw [List.map_cons, List.map_cons, hid, eq_of_beq h]
      case isFalse h => rw [List.map_cons, List.map_cons, ih]

theorem find?_replaceEnemy {enemies : List Combatant} (hid : after.id = id)
    (hmem : id ∈ enemies.map (·.id)) :
    (replaceEnemy id after enemies).find? (·.id == other) =
      if other = id then some after else enemies.find? (·.id == other) := by
  induction enemies with
  | nil => exact absurd hmem List.not_mem_nil
  | cons enemy enemies ih =>
      unfold replaceEnemy
      split
      case isTrue h =>
        have henemy : enemy.id = id := eq_of_beq h
        by_cases ho : other = id
        · simp [ho, hid]
        · have ho' : ¬id = other := fun h => ho h.symm
          simp [ho, ho', hid, henemy]
      case isFalse h =>
        have henemy : ¬enemy.id = id := fun h' => h (beq_iff_eq.mpr h')
        have hrest : id ∈ enemies.map (·.id) :=
          (List.mem_cons.mp hmem).resolve_left fun h' => henemy h'.symm
        by_cases ho : enemy.id = other
        · have ho' : ¬other = id := fun h' => henemy (ho.trans h')
          simp [ho, ho']
        · simp [ho, ih hrest]

/-- The number of living combatants in a list changes as the one that is replaced does. -/
theorem length_living_replaceEnemy {enemies : List Combatant}
    (hfind : enemies.find? (·.id == id) = some before) :
    ((replaceEnemy id after enemies).filter (·.isAlive)).length + before.isAlive.toNat =
      (enemies.filter (·.isAlive)).length + after.isAlive.toNat := by
  induction enemies with
  | nil => exact absurd hfind (by simp)
  | cons enemy enemies ih =>
      unfold replaceEnemy
      rw [List.find?_cons] at hfind
      split at hfind
      case h_1 h =>
        obtain rfl := Option.some.inj hfind
        rw [if_pos h]
        cases hb : enemy.isAlive <;> cases ha : after.isAlive <;> simp [hb, ha]
      case h_2 h =>
        rw [if_neg (by simp [h])]
        have := ih hfind
        cases hb : enemy.isAlive <;> simp [hb] <;> omega

/-! ## Setting -/

theorem id_of_combatant? (hid : id ≠ .player) (h : combat.combatant? id = some before) :
    before.id = id := by
  unfold combatant? at h
  rw [if_neg (by simpa [CombatantId.isPlayer] using hid)] at h
  simpa using List.find?_some h

theorem combatant?_player : combat.combatant? .player = some combat.player := rfl

theorem combatant?_enemy (hid : id ≠ .player) :
    combat.combatant? id = combat.enemies.find? (·.id == id) :=
  if_neg (by simpa [CombatantId.isPlayer] using hid)

theorem setCombatant_player : combat.setCombatant .player after = { combat with player := after } :=
  rfl

theorem setCombatant_enemy (hid : id ≠ .player) : combat.setCombatant id after =
    { combat with enemies := replaceEnemy id after combat.enemies } :=
  if_neg (by simpa [CombatantId.isPlayer] using hid)

/-- Whoever was set is found as it was set, and everyone else as before. -/
theorem combatant?_setCombatant (hc : combat.combatant? id = some before)
    (hid : after.id = before.id) :
    (combat.setCombatant id after).combatant? other =
      if other = id then some after else combat.combatant? other := by
  by_cases hp : id = .player
  · subst hp
    rw [setCombatant_player]
    by_cases ho : other = .player
    · rw [if_pos ho, ho]
      rfl
    · rw [if_neg ho, combatant?_enemy ho, combatant?_enemy ho]
  · have hafter : after.id = id := hid.trans (id_of_combatant? hp hc)
    rw [setCombatant_enemy hp]
    rw [combatant?_enemy hp] at hc
    have hmem : id ∈ combat.enemies.map (·.id) :=
      List.mem_map.mpr ⟨before, List.mem_of_find?_eq_some hc, by simpa using List.find?_some hc⟩
    by_cases ho : other = .player
    · rw [if_neg (by rw [ho]; exact fun h => hp h.symm), ho]
      rfl
    · rw [combatant?_enemy ho, combatant?_enemy ho]
      exact find?_replaceEnemy hafter hmem

/-- The enemies keep their order. -/
theorem map_id_enemies_setCombatant (hc : combat.combatant? id = some before)
    (hid : after.id = before.id) :
    (combat.setCombatant id after).enemies.map (·.id) = combat.enemies.map (·.id) := by
  by_cases hp : id = .player
  · rw [hp, setCombatant_player]
  · rw [setCombatant_enemy hp]
    exact map_id_replaceEnemy (hid.trans (id_of_combatant? hp hc))

theorem length_livingEnemies_setCombatant (hp : id ≠ .player)
    (hc : combat.combatant? id = some before) :
    (combat.setCombatant id after).livingEnemies.length + before.isAlive.toNat =
      combat.livingEnemies.length + after.isAlive.toNat := by
  rw [setCombatant_enemy hp]
  rw [combatant?_enemy hp] at hc
  exact length_living_replaceEnemy hc

theorem livingEnemies_setCombatant_player :
    (combat.setCombatant .player after).livingEnemies = combat.livingEnemies := rfl

theorem isAlive_of_combatant? (hc : combat.combatant? id = some before) :
    combat.isAlive id = before.isAlive := by
  rw [isAlive, hc, Option.any_some]

theorem isLivingEnemy_iff : combat.isLivingEnemy id = true ↔
    id ≠ .player ∧ ∃ c, combat.combatant? id = some c ∧ c.isAlive = true := by
  unfold isLivingEnemy isAlive
  rw [Bool.and_eq_true, Option.any_eq_true]
  simp [CombatantId.isPlayer]

/-- Where there is a living enemy, there are living enemies. -/
theorem livingEnemyIds_ne_nil (h : combat.isLivingEnemy id = true) :
    combat.livingEnemyIds ≠ [] := by
  obtain ⟨hp, c, hc, halive⟩ := isLivingEnemy_iff.mp h
  rw [combatant?_enemy hp] at hc
  have hmem : c ∈ combat.livingEnemies :=
    List.mem_filter.mpr ⟨List.mem_of_find?_eq_some hc, halive⟩
  exact List.ne_nil_of_mem (List.mem_map_of_mem hmem)

/-- Nothing is decided as long as the player and an enemy live. -/
theorem isDecided_of_living (h : combat.isLivingEnemy id = true)
    (hp : combat.player.isAlive = true) : combat.isDecided = false := by
  have hliving : combat.livingEnemies ≠ [] :=
    fun heq => livingEnemyIds_ne_nil h (by rw [livingEnemyIds, heq, List.map_nil])
  unfold isDecided
  rw [hp, Bool.not_true, Bool.false_or, List.isEmpty_eq_false_iff]
  exact hliving

/-! ## Taking the dead away -/

/-- The combatants with different numbers, none of them the number of the player. -/
def Numbered (combat : Combat) : Prop :=
  (combat.enemies.map (·.id)).Nodup ∧ CombatantId.player ∉ combat.enemies.map (·.id)

/-- An enemy is found under its own number. -/
theorem combatant?_eq_some_iff (hn : combat.Numbered) (hid : id ≠ .player) :
    combat.combatant? id = some before ↔ before ∈ combat.enemies ∧ before.id = id := by
  rw [combatant?_enemy hid]
  exact find?_key_eq_some_iff hn.1

/-- Who is left when the dead were taken away: the living. -/
theorem combatant?_reap (hn : combat.Numbered) (hid : id ≠ .player) :
    combat.reap.2.combatant? id = (combat.combatant? id).filter (·.isAlive) := by
  rw [combatant?_enemy hid, combatant?_enemy hid]
  show (combat.enemies.filter (·.isAlive)).find? (·.id == id) = _
  obtain ⟨hnodup, -⟩ := hn
  generalize combat.enemies = enemies at hnodup ⊢
  induction enemies with
  | nil => rfl
  | cons enemy enemies ih =>
      rw [List.map_cons, List.nodup_cons] at hnodup
      have ih := ih hnodup.2
      by_cases he : enemy.id = id
      · have hrest : enemies.find? (·.id == id) = none := by
          rw [List.find?_eq_none]
          intro other hmem ho
          rw [← he] at ho
          exact hnodup.1 (List.mem_map.mpr ⟨other, hmem, by simpa using ho⟩)
        rw [hrest] at ih
        cases ha : enemy.isAlive <;> simp [ha, he, ih, Option.filter]
      · cases ha : enemy.isAlive <;> simp [ha, he, ih]

end Combat

end CardCombat
