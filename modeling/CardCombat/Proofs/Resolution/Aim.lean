import CardCombat.Proofs.Combat.Combatants
import CardCombat.Resolve.Aim

/-!
# Whom an aim finds

An aim finds the living only, and if it finds the player then before all enemies. Where several
combatants had one number the first of them would stand for all, so this takes a combat in which
everyone has a number of its own.

## Main results

* `Aim.isAlive_of_mem_find` -- whoever is found is alive.
* `Aim.ne_player_of_mem_tail_find` -- the player is found first or not at all.
-/

namespace CardCombat

namespace Combat

variable {combat : Combat} {id : CombatantId}

/-- The numbers of the living enemies are those of living combatants, and not the player's. -/
theorem mem_livingEnemyIds (hn : combat.Numbered) :
    id ∈ combat.livingEnemyIds ↔ id ≠ .player ∧ combat.isAlive id := by
  unfold livingEnemyIds livingEnemies isAlive
  constructor
  · intro h
    obtain ⟨enemy, he, rfl⟩ := List.mem_map.mp h
    obtain ⟨he, halive⟩ := List.mem_filter.mp he
    have hid : enemy.id ≠ .player := fun h => hn.2 (h ▸ List.mem_map.mpr ⟨enemy, he, rfl⟩)
    rw [(combatant?_eq_some_iff hn hid).mpr ⟨he, rfl⟩]
    exact ⟨hid, halive⟩
  · rintro ⟨hid, halive⟩
    rw [Option.any_eq_true] at halive
    obtain ⟨enemy, hf, halive⟩ := halive
    obtain ⟨he, rfl⟩ := (combatant?_eq_some_iff hn hid).mp hf
    exact List.mem_map.mpr ⟨enemy, List.mem_filter.mpr ⟨he, halive⟩, rfl⟩

end Combat

namespace Aim

variable {combat : Combat} {ctx : Context} {target : Aim} {id other : CombatantId}

/-- Whatever is picked while a list is gone through lies in the list, or it was picked before. -/
theorem mem_of_pick {α : Type} {pick : Option α → α → Option α}
    (hpick : ∀ picked x, pick picked x = some x ∨ pick picked x = picked) {xs : List α}
    {start : Option α} {best : α} (h : xs.foldl pick start = some best) :
    start = some best ∨ best ∈ xs := by
  induction xs generalizing start with
  | nil => exact .inl h
  | cons x xs ih =>
      rcases ih h with h | h
      · rcases hpick start x with hnew | hold
        · exact .inr (Option.some.inj (hnew.symm.trans h) ▸ List.mem_cons_self)
        · exact .inl (hold.symm.trans h)
      · exact .inr (List.mem_cons_of_mem _ h)

theorem mem_of_leader {beats : Int → Int → Bool} {combatants : List Combatant} {best : Combatant}
    (h : leader beats combatants = some best) : best ∈ combatants := by
  refine (mem_of_pick (fun picked combatant => ?_) h).resolve_left nofun
  cases picked with
  | none => exact .inl rfl
  | some leader =>
      dsimp only
      split
      · exact .inl rfl
      · exact .inr rfl

theorem mem_living (h : id ∈ living combat other) : id = other ∧ combat.isAlive id := by
  unfold living at h
  split at h
  · obtain rfl := List.mem_singleton.mp h
    exact ⟨rfl, ‹_›⟩
  · exact absurd h List.not_mem_nil

private theorem mem_head {ids : List CombatantId} (h : id ∈ ids.head?.toList) : id ∈ ids :=
  List.mem_of_mem_head? (by simpa using h)

private theorem mem_getLast {ids : List CombatantId} (h : id ∈ ids.getLast?.toList) : id ∈ ids :=
  List.mem_of_mem_getLast? (by simpa using h)

/-- All candidates of an aim are alive. -/
theorem isAlive_of_mem_candidates (hn : combat.Numbered)
    (h : id ∈ target.candidates combat ctx) : combat.isAlive id := by
  have ofLiving (h : id ∈ combat.livingEnemyIds) : combat.isAlive id :=
    ((Combat.mem_livingEnemyIds hn).mp h).2
  have ofLeader {beats : Int → Int → Bool}
      (h : id ∈ ((leader beats combat.livingEnemies).map (·.id)).toList) : combat.isAlive id := by
    rw [Option.mem_toList, Option.map_eq_some_iff] at h
    obtain ⟨best, hbest, rfl⟩ := h
    exact ofLiving (List.mem_map.mpr ⟨best, mem_of_leader hbest, rfl⟩)
  cases target with
  | player | self => exact (mem_living h).2
  | source =>
      dsimp only [candidates] at h
      split at h
      · cases hc : ctx.currentTarget with
        | none => simp [hc] at h
        | some cause =>
            rw [hc] at h
            exact (mem_living h).2
      · exact (mem_living h).2
  | enemy =>
      dsimp only [candidates] at h
      cases hf : ([ctx.currentTarget, ctx.target].filterMap fun chosen => chosen).find?
          combat.isLivingEnemy with
      | none => exact ofLiving (mem_head (by simpa [hf] using h))
      | some chosen =>
          have hid : id = chosen := by simpa [hf] using h
          have hliving : combat.isLivingEnemy chosen := List.find?_some hf
          rw [Combat.isLivingEnemy, Bool.and_eq_true] at hliving
          exact hid ▸ hliving.2
  | randomEnemy | allEnemies => exact ofLiving h
  | weakestEnemy | strongestEnemy => exact ofLeader h
  | frontEnemy => exact ofLiving (mem_head h)
  | backEnemy => exact ofLiving (mem_getLast h)
  | everyone =>
      rcases List.mem_append.mp h with h | h
      · exact (mem_living h).2
      · exact ofLiving h
  | otherEnemies => exact ofLiving (List.mem_of_mem_filter h)

/-- Whoever is found is a candidate. -/
theorem mem_candidates_of_mem_find {rng : Rng} (h : id ∈ ((target.find combat ctx).run rng).1) :
    id ∈ target.candidates combat ctx := by
  unfold find at h
  dsimp only at h
  split at h
  · change id ∈ (((Draw.index _).run rng).1.bind fun i =>
      (target.candidates combat ctx)[i]?).toList at h
    rw [Option.mem_toList, Option.bind_eq_some_iff] at h
    obtain ⟨i, -, hi⟩ := h
    exact List.mem_of_getElem? hi
  · exact h

/-- **Whoever is found is alive.** -/
theorem isAlive_of_mem_find (hn : combat.Numbered) {rng : Rng}
    (h : id ∈ ((target.find combat ctx).run rng).1) : combat.isAlive id :=
  isAlive_of_mem_candidates hn (mem_candidates_of_mem_find h)

private theorem tail_toList {α : Type} (found : Option α) : found.toList.tail = [] := by
  cases found <;> rfl

private theorem tail_living : (living combat other).tail = [] := by
  unfold living
  split <;> rfl

/-- **The player is found before all enemies, if at all.** -/
theorem ne_player_of_mem_tail_find (hn : combat.Numbered) {rng : Rng}
    (h : id ∈ ((target.find combat ctx).run rng).1.tail) : id ≠ .player := by
  have ofEnemies (h : id ∈ combat.livingEnemyIds) : id ≠ .player :=
    ((Combat.mem_livingEnemyIds hn).mp h).1
  have ofNone {ids : List CombatantId} (hnone : ids.tail = []) (h : id ∈ ids.tail) :
      id ≠ .player := absurd (hnone ▸ h) List.not_mem_nil
  unfold find at h
  dsimp only at h
  split at h
  · exact ofNone (tail_toList _) h
  · change id ∈ (target.candidates combat ctx).tail at h
    cases target with
    | player | self => exact ofNone tail_living h
    | source =>
        dsimp only [candidates] at h
        split at h
        · cases hc : ctx.currentTarget with
          | none => simp [hc] at h
          | some cause =>
              rw [hc] at h
              exact ofNone tail_living h
        · exact ofNone tail_living h
    | enemy | weakestEnemy | strongestEnemy | frontEnemy | backEnemy =>
        exact ofNone (tail_toList _) h
    | randomEnemy | allEnemies => exact ofEnemies (List.mem_of_mem_tail h)
    | otherEnemies => exact ofEnemies (List.mem_of_mem_filter (List.mem_of_mem_tail h))
    | everyone =>
        dsimp only [candidates] at h
        unfold living at h
        split at h
        · exact ofEnemies h
        · exact ofEnemies (List.mem_of_mem_tail h)

end Aim

end CardCombat
