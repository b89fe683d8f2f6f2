import CardCombat.Proofs.Resolution.Found
import Mathlib.Data.List.Induction

/-!
# Whom an aim finds, aim by aim

Whatever an aim finds is alive, and nobody is found twice. The weakest and the strongest enemy are
the first of those that are equally weak or strong, so that ties are settled by where the enemies
stand; groups of enemies are found in the order in which they stand. All of this is up to the
combat and the context alone, save for an enemy at random.

## Main definitions

* `Aim.Leads` -- a combatant is the first of the best in a list.
* `Aim.FindsFirst`, `Aim.FindsRightly` -- what an aim at the best comes to, and what all aims do.

## Main results

* `Aim.leads_leader` -- the combatant that is picked is the first of the best.
* `Aim.run_find_of_ne` -- an aim that is not at random does not draw.
* `Aim.findsRightly_of_numbered` -- all aims.
-/

namespace CardCombat

namespace Aim

variable {combat : Combat} {ctx : Context} {target : Aim} {rng : Rng} {id : CombatantId}

/-! ## The first of the best -/

section Leader

variable {better : Int → Int → Prop} {combatants : List Combatant} {next best : Combatant}

/-- The combatant is the first of those in a list whose health is the best: better than that of all
before it, and no worse than that of all behind it. -/
def Leads (better : Int → Int → Prop) (combatants : List Combatant) (best : Combatant) : Prop :=
  ∃ front back, combatants = front ++ best :: back ∧
    (∀ other ∈ front, better best.health other.health) ∧
      ∀ other ∈ back, ¬better other.health best.health

/-- One more combatant takes the lead if it is better. -/
theorem Leads.concat_of_better (hasymm : ∀ a b, better a b → ¬better b a)
    (htrans : ∀ a b c, better a b → ¬better c b → better a c)
    (h : Leads better combatants best) (hbetter : better next.health best.health) :
    Leads better (combatants ++ [next]) next := by
  obtain ⟨front, back, rfl, hfront, hback⟩ := h
  refine ⟨front ++ best :: back, [], rfl, fun other hmem => ?_, by simp⟩
  rcases List.mem_append.mp hmem with hmem | hmem
  · exact htrans _ _ _ hbetter (hasymm _ _ (hfront other hmem))
  · rcases List.mem_cons.mp hmem with rfl | hmem
    · exact hbetter
    · exact htrans _ _ _ hbetter (hback other hmem)

/-- If it is not better the lead stays as it is. -/
theorem Leads.concat_of_not_better (h : Leads better combatants best)
    (hbetter : ¬better next.health best.health) : Leads better (combatants ++ [next]) best := by
  obtain ⟨front, back, rfl, hfront, hback⟩ := h
  refine ⟨front, back ++ [next], by simp, hfront, fun other hmem => ?_⟩
  rcases List.mem_append.mp hmem with hmem | hmem
  · exact hback other hmem
  · exact List.mem_singleton.mp hmem ▸ hbetter

theorem leader_concat (beats : Int → Int → Bool) (combatants : List Combatant)
    (next : Combatant) : leader beats (combatants ++ [next]) =
      match leader beats combatants with
      | some best => if beats next.health best.health then some next else some best
      | none => some next := by
  unfold leader
  rw [List.foldl_append, List.foldl_cons, List.foldl_nil]
  split <;> simp_all

/-- **Whoever is picked is the first of the best**, and nobody is picked only where nobody is. -/
theorem leads_leader [DecidableRel better] (hasymm : ∀ a b, better a b → ¬better b a)
    (htrans : ∀ a b c, better a b → ¬better c b → better a c)
    (combatants : List Combatant) :
    combatants = [] ∧ leader (fun a b => better a b) combatants = none ∨
      ∃ best, Leads better combatants best ∧
        leader (fun a b => better a b) combatants = some best := by
  induction combatants using List.reverseRecOn with
  | nil => exact .inl ⟨rfl, rfl⟩
  | append_singleton front next ih =>
      right
      rw [leader_concat]
      rcases ih with ⟨rfl, hnone⟩ | ⟨best, hleads, hbest⟩
      · rw [hnone]
        exact ⟨next, ⟨[], [], rfl, by simp, by simp⟩, rfl⟩
      · rw [hbest]
        by_cases hbetter : better next.health best.health
        · exact ⟨next, hleads.concat_of_better hasymm htrans hbetter, if_pos (by simpa)⟩
        · exact ⟨best, hleads.concat_of_not_better hbetter, if_neg (by simpa)⟩

end Leader

/-! ## Aims that are fixed -/

/-- **An aim that is not at random does not draw**, and finds its candidates. -/
theorem run_find_of_ne (h : target ≠ .randomEnemy) :
    (target.find combat ctx).run rng = (target.candidates combat ctx, rng) := by
  have hfixed : target.isRandom = false := beq_false_of_ne h
  unfold find
  rw [hfixed]
  rfl

theorem fixed?_of_ne (h : target ≠ .randomEnemy) :
    target.fixed? combat ctx = some (target.candidates combat ctx) := by
  have hfixed : target.isRandom = false := beq_false_of_ne h
  unfold fixed?
  rw [hfixed]
  rfl

/-! ## All aims -/

/-- An aim at the best of the living enemies finds the first of them, or nobody if no enemy
lives. -/
def FindsFirst (combat : Combat) (ctx : Context) (rng : Rng) (better : Int → Int → Prop)
    (target : Aim) : Prop :=
  combat.livingEnemies = [] ∧ (target.find combat ctx).run rng = ([], rng) ∨
    ∃ best, Leads better combat.livingEnemies best ∧
      (target.find combat ctx).run rng = ([best.id], rng)

/-- Whom the aims find in a combat. -/
structure FindsRightly (combat : Combat) (ctx : Context) (rng : Rng) : Prop where
  distinct : ∀ target : Aim, ((target.find combat ctx).run rng).1.Nodup
  alive : ∀ target : Aim, ∀ id ∈ ((target.find combat ctx).run rng).1, combat.isAlive id = true
  weakest : FindsFirst combat ctx rng (· < ·) .weakestEnemy
  strongest : FindsFirst combat ctx rng (· > ·) .strongestEnemy
  /-- All living enemies, in their order. -/
  all : (((allEnemies.find combat ctx).run rng).1.Sublist (combat.enemies.map (·.id))) ∧
    ∀ id, id ∈ ((allEnemies.find combat ctx).run rng).1 ↔ combat.isLivingEnemy id = true
  /-- All living enemies but the one that is aimed at, in their order. -/
  others : (((otherEnemies.find combat ctx).run rng).1.Sublist (combat.enemies.map (·.id))) ∧
    ∀ id, id ∈ ((otherEnemies.find combat ctx).run rng).1 ↔
      combat.isLivingEnemy id = true ∧ (ctx.currentTarget <|> ctx.target) ≠ some id
  /-- Only an enemy at random is drawn. -/
  fixed : ∀ target : Aim, target ≠ .randomEnemy → ∃ ids,
    target.fixed? combat ctx = some ids ∧ (target.find combat ctx).run rng = (ids, rng)

/-- An aim at a leader finds the leader. -/
theorem findsFirst_of_leader {better : Int → Int → Prop} [DecidableRel better]
    (hasymm : ∀ a b, better a b → ¬better b a)
    (htrans : ∀ a b c, better a b → ¬better c b → better a c)
    (hne : target ≠ .randomEnemy) (hcandidates : target.candidates combat ctx =
      ((leader (fun a b => better a b) combat.livingEnemies).map (·.id)).toList) :
    FindsFirst combat ctx rng better target := by
  unfold FindsFirst
  rw [run_find_of_ne hne, hcandidates]
  rcases leads_leader hasymm htrans combat.livingEnemies with ⟨hnone, h⟩ | ⟨best, hleads, h⟩
  · exact .inl ⟨hnone, by rw [h]; rfl⟩
  · exact .inr ⟨best, hleads, by rw [h]; rfl⟩

theorem livingEnemyIds_sublist : combat.livingEnemyIds.Sublist (combat.enemies.map (·.id)) :=
  List.filter_sublist.map _

theorem mem_livingEnemyIds_iff (hn : combat.Numbered) :
    id ∈ combat.livingEnemyIds ↔ combat.isLivingEnemy id = true := by
  rw [Combat.mem_livingEnemyIds hn, Combat.isLivingEnemy, Bool.and_eq_true, Bool.not_eq_true',
    CombatantId.isPlayer, beq_eq_false_iff_ne]

/-- **Whom the aims find** in a combat in which everyone has a number of its own. -/
theorem findsRightly_of_numbered (hn : combat.Numbered) (ctx : Context) (rng : Rng) :
    FindsRightly combat ctx rng where
  distinct _ := nodup_find hn
  alive _ _ := isAlive_of_mem_find hn
  weakest := findsFirst_of_leader (by omega) (by omega) (by decide) rfl
  strongest := findsFirst_of_leader (by omega) (by omega) (by decide) rfl
  all := by
    rw [run_find_of_ne (by decide)]
    exact ⟨livingEnemyIds_sublist, fun id => mem_livingEnemyIds_iff hn⟩
  others := by
    rw [run_find_of_ne (by decide)]
    refine ⟨List.filter_sublist.trans livingEnemyIds_sublist, fun id => ?_⟩
    show id ∈ List.filter _ _ ↔ _
    rw [List.mem_filter, mem_livingEnemyIds_iff hn, bne_iff_ne, ne_comm]
  fixed _ hne := ⟨_, fixed?_of_ne hne, run_find_of_ne hne⟩

end Aim

/-! ## Five enemies -/

/-- Two enemies are equally weak, two are equally strong, and one is dead. -/
def lineup : Combat where
  player := .ofPlayer "" 10 10
  resources := {}
  nextCardUid := 1
  enemies := [(1, 20), (2, 0), (3, 10), (4, 30), (5, 10), (6, 30)].map fun (number, health) =>
    { id := ⟨number⟩, name := "", health, maxHealth := 30 }

/-- The dead are passed over, and ties go to whoever stands before the other. -/
theorem Aim.findsRightly_lineup :
    lineup.Numbered ∧ FindsRightly lineup { currentTarget := some ⟨4⟩ } (.ofSeed 0) ∧
      weakestEnemy.fixed? lineup { currentTarget := some ⟨4⟩ } = some [⟨3⟩] ∧
      strongestEnemy.fixed? lineup { currentTarget := some ⟨4⟩ } = some [⟨4⟩] ∧
      otherEnemies.fixed? lineup { currentTarget := some ⟨4⟩ } = some [⟨1⟩, ⟨3⟩, ⟨5⟩, ⟨6⟩] := by
  have hnumbered : lineup.Numbered := by
    unfold Combat.Numbered
    decide
  exact ⟨hnumbered, findsRightly_of_numbered hnumbered _ _, by decide, by decide, by decide⟩

end CardCombat
