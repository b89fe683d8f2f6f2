import CardCombat.Proofs.Powers.Stacks
import CardCombat.Proofs.Resolution.Found
import CardCombat.Resolve.Dispatch

/-!
# The loss of powers

Powers are removed by a rule: without an amount the whole power goes, and otherwise so many stacks
are taken off, be there as many or not; a power that goes when its stack is not positive goes then,
and any other one stays with what is left, even below zero. An effect that removes a power follows
the rule for as many stacks as there are only. That is not the same where more is asked for and the
power stays: the rule leaves its stack below zero, the effect leaves it at zero.

## Main definitions

* `Combatant.Loss` -- a combatant has lost stacks of a power, and how that compares with the rule.
* `Scene.deprived` -- the scene after stacks were taken from one combatant.

## Main results

* `Resolution.run_takePower` -- what taking stacks from one combatant does.
* `Resolution.deprived_of_removePower` -- an effect that removes a power follows the rule exactly if
  no more is asked for than there is or the power goes anyway.
-/

namespace CardCombat

/-- A combatant has lost stacks of a power: as many as were asked for, but no more than there were.
-/
structure Combatant.Loss (catalog : Catalog PowerDefinition) (power : PowerId) (asked : Option Int)
    (before after : Combatant) : Prop where
  /-- What remains. -/
  remains : after =
    before.without catalog power (asked.map fun _ => before.powers.yield power asked)
  /-- What remains by the rule. -/
  rule : before.removePower catalog power asked =
    .ok (before.powers.rest power (catalog.goesAtZero power) asked,
      before.without catalog power asked)
  /-- When these are the same. -/
  follows_iff : after = before.without catalog power asked ↔
    (∀ n ∈ asked, n ≤ before.powers.amount power) ∨ catalog.goesAtZero power = true

theorem Combatant.loss {catalog : Catalog PowerDefinition} {power : PowerId} {asked : Option Int}
    {before : Combatant} {held : Power} (hheld : before.powers.get? power = some held)
    (hfits : ∀ n ∈ asked, Signed.Fits (before.powers.amount power - n)) :
    Loss catalog power asked before
      (before.without catalog power (asked.map fun _ => before.powers.yield power asked)) where
  remains := rfl
  rule := removePower_eq_ok hheld hfits
  follows_iff := by
    rw [← PowerSet.lessened_yield_iff hheld]
    exact ⟨congrArg Combatant.powers, congrArg fun powers => { before with powers }⟩

/-- What becomes of a combatant from which stacks of a power are taken. -/
def Combatant.Deprived (catalog : Catalog PowerDefinition) (power : PowerId) (asked : Option Int)
    (before after : Combatant) : Prop :=
  if before.powers.contains power then Loss catalog power asked before after else after = before

/-- The scene after stacks of a power were taken from a combatant that held it, and an event has
told what is left. -/
def Scene.deprived (catalog : Catalog PowerDefinition) (scene : Scene) (id : CombatantId)
    (before : Combatant) (power : PowerId) (asked : Option Int) : Scene :=
  let taken := before.powers.yield power asked
  scene.amended id (before.without catalog power (asked.map fun _ => taken))
    (Event.ofTaken id power taken
      (before.powers.rest power (catalog.goesAtZero power) (asked.map fun _ => taken)))

theorem Scene.combatant?_deprived {catalog : Catalog PowerDefinition} {s : Scene}
    {id other : CombatantId} {before : Combatant} {power : PowerId} {asked : Option Int}
    (hc : s.combat.combatant? id = some before) :
    (s.deprived catalog id before power asked).combat.combatant? other =
      if other = id then
        some (before.without catalog power (asked.map fun _ => before.powers.yield power asked))
      else s.combat.combatant? other :=
  combatant?_amended hc Combatant.sameButPowers_without

/-- Nothing happens if nothing is there to be taken and the power stays. -/
theorem Scene.deprived_eq_self {catalog : Catalog PowerDefinition} {s : Scene}
    {id : CombatantId} {before : Combatant} {held : Power} {power : PowerId} {n : Int}
    (hc : s.combat.combatant? id = some before) (hheld : before.powers.get? power = some held)
    (hzero : held.amount = 0) (hn : 0 ≤ n) (hstays : catalog.goesAtZero power = false) :
    s.deprived catalog id before power (some n) = s := by
  have hamount : before.powers.amount power = 0 := (PowerSet.amount_of_get? hheld).trans hzero
  have hyield : before.powers.yield power (some n) = 0 := by
    show min n (before.powers.amount power) = 0
    omega
  have hsame : before.without catalog power (some 0) = before := by
    have hpowers : before.powers.lessened power (catalog.goesAtZero power) (some 0) =
        before.powers := by
      refine (PowerSet.withStack_eq_self_iff hheld).mpr ⟨by omega, ?_⟩
      rw [hstays, Bool.and_false]
    unfold Combatant.without
    rw [hpowers]
  have hrest : before.powers.rest power (catalog.goesAtZero power) (some 0) = some 0 := by
    unfold PowerSet.rest
    rw [hamount, hstays]
    rfl
  unfold deprived
  dsimp only
  rw [hyield, Option.map_some, hsame, hrest]
  exact amended_self hc

namespace Resolution

variable {rules : Rules} {nested : List Effect → Context → Resolution Unit} {ctx : Context}
  {s t : Scene} {id : CombatantId} {power : PowerId} {asked : Option Int} {before : Combatant}
  {held : Power}

/-! ## One combatant -/

theorem run_reportTaken_iff {taken : Int} {left : Option Int} {u : Unit} :
    (reportTaken id power taken left).run s = .ok (u, t) ↔
      s.tell (Event.ofTaken id power taken left) = t := by
  cases left with
  | none => exact run_report_iff
  | some left => exact run_if_report_iff

/-- **Stacks are taken** from a combatant that holds the power. -/
theorem run_takePower (hc : s.combat.combatant? id = some before)
    (hheld : before.powers.get? power = some held)
    (hfits : ∀ n ∈ asked, Signed.Fits (before.powers.amount power - n)) :
    (takePower rules id power asked).run s = .ok (before.powers.yield power asked,
      s.deprived rules.content.powers id before power asked) := by
  have hleft : ∀ n ∈ asked.map fun _ => before.powers.yield power asked,
      Signed.Fits (before.powers.amount power - n) := by
    intro n hn
    obtain ⟨_, -, rfl⟩ := Option.map_eq_some_iff.mp hn
    exact PowerSet.fits_sub_yield hfits
  have htaken : (asked.map (min · held.amount)).getD held.amount =
      before.powers.yield power asked := by
    rw [← PowerSet.amount_of_get? hheld]
    rfl
  unfold takePower
  refine run_bind_iff.mpr ⟨some before, s, run_combatant?_iff.mpr ⟨hc, rfl⟩, ?_⟩
  dsimp only
  rw [hheld]
  dsimp only
  rw [htaken]
  refine run_bind_iff.mpr
    ⟨_, s, run_lift_iff.mpr ⟨Combatant.removePower_eq_ok hheld hleft, rfl⟩, ?_⟩
  refine run_bind_iff.mpr ⟨(), _, run_setCombatant_iff.mpr rfl, ?_⟩
  exact run_bind_iff.mpr ⟨(), _, run_reportTaken_iff.mpr rfl, rfl⟩

/-- Nothing is taken from a combatant that does not hold the power. -/
theorem run_takePower_eq_zero (hc : s.combat.combatant? id = some before)
    (hheld : before.powers.get? power = none) :
    (takePower rules id power asked).run s = .ok (0, s) := by
  unfold takePower
  refine run_bind_iff.mpr ⟨some before, s, run_combatant?_iff.mpr ⟨hc, rfl⟩, ?_⟩
  dsimp only
  rw [hheld]
  rfl

/-- Whoever stacks are taken from is deprived of them, and nobody else changes. -/
theorem run_deprive (hc : s.combat.combatant? id = some before)
    (hfits : ∀ n ∈ asked, Signed.Fits (before.powers.amount power - n)) :
    ∃ t after, (discard (takePower rules id power asked)).run s = .ok ((), t) ∧
      t.combat.combatant? id = some after ∧
        before.Deprived rules.content.powers power asked after ∧
          ∀ other, other ≠ id → t.combat.combatant? other = s.combat.combatant? other := by
  unfold Combatant.Deprived PowerSet.contains
  cases hheld : before.powers.get? power with
  | none =>
      have hrun : (takePower rules id power asked).run s = .ok (0, s) :=
        run_takePower_eq_zero hc hheld
      exact ⟨s, before, run_discard_iff.mpr ⟨0, hrun⟩, hc, rfl, fun _ _ => rfl⟩
  | some held =>
      have hrun : (takePower rules id power asked).run s =
          .ok (_, s.deprived rules.content.powers id before power asked) :=
        run_takePower hc hheld hfits
      refine ⟨_, _, run_discard_iff.mpr ⟨_, hrun⟩, ?_, Combatant.loss hheld hfits,
        fun other hne => ?_⟩
      · rw [Scene.combatant?_deprived hc, if_pos rfl]
      · rw [Scene.combatant?_deprived hc, if_neg hne]

/-! ## Everyone who is aimed at -/

/-- **The loss of a power.** An effect that removes a power takes as many of its stacks as are asked
for from all that it finds, but from none of them more than there are. What remains of the power is
what the rule leaves for the amount that is asked for exactly if there is as much or if the power
goes when its stack is not positive. Nothing else of a combatant changes, and nobody else. -/
theorem deprived_of_removePower {value : Option Value} {aim : Aim} (hn : s.combat.Numbered)
    (hasked : value.mapM (·.resolve s.combat ctx) = .ok asked)
    (hfits : ∀ id ∈ s.found aim ctx, ∀ before, s.combat.combatant? id = some before →
      ∀ n ∈ asked, Signed.Fits (before.powers.amount power - n)) :
    ∃ t, (dispatch rules nested ctx (.removePower power value aim)).run s = .ok ((), t) ∧
      (∀ id ∈ s.found aim ctx, ∀ before, s.combat.combatant? id = some before →
        ∃ after, t.combat.combatant? id = some after ∧
          before.Deprived rules.content.powers power asked after) ∧
        ∀ id, id ∉ s.found aim ctx → t.combat.combatant? id = s.combat.combatant? id := by
  have hthere : ∀ id ∈ s.found aim ctx, ∃ before, s.combat.combatant? id = some before := by
    intro id hmem
    obtain ⟨before, hc, -⟩ := Scene.exists_of_mem_found hn hmem
    exact ⟨before, hc⟩
  obtain ⟨t, hrun, hfound, hothers⟩ := exists_run_forM (s := s.sought aim ctx)
    (Scene.nodup_found hn) hthere fun id hmem before hc u hu =>
      run_deprive hu (hfits id hmem before hc)
  refine ⟨t, ?_, hfound, hothers⟩
  refine run_bind_iff.mpr ⟨asked, s, run_amount?_iff.mpr ⟨hasked, rfl⟩, ?_⟩
  exact run_bind_iff.mpr ⟨_, _, run_targets s aim ctx, hrun⟩

end Resolution

/-! ## Sapped strength -/

/-- Rules with the built-in powers. -/
def brawlRules : Rules where
  content := {}

/-- The player before an enemy, with powers of both. -/
def brawlScene (ofPlayer ofEnemy : PowerSet) : Scene where
  combat :=
    { player := { Combatant.ofPlayer "Hero" 10 10 with powers := ofPlayer }
      resources := {}
      enemies := [{ id := ⟨1⟩, name := "Rat", health := 10, maxHealth := 10, powers := ofEnemy }]
      nextCardUid := 1 }
  gold := 0
  stats := {}
  relics := []
  rng := .ofSeed 0

theorem numbered_brawlScene (ofPlayer ofEnemy : PowerSet) :
    (brawlScene ofPlayer ofEnemy).combat.Numbered := by
  have hother : CombatantId.player ≠ ⟨1⟩ := by decide
  exact ⟨List.nodup_singleton _, List.not_mem_cons_of_ne_of_not_mem hother List.not_mem_nil⟩

/-- The player has one stack of strength. -/
def sapScene : Scene := brawlScene [{ id := "strength", amount := 1 }] []

/-- Three stacks of strength are removed. -/
def sap : Effect := .removePower "strength" (some (.fixed 3)) .self

/-- The scene after that. -/
def sapAfter : Scene :=
  Resolution.sceneAfter (Resolution.dispatch brawlRules Resolution.skip {} sap) sapScene

namespace Resolution

/-- More strength is asked for than there is: the loss takes what there is, and does not follow the
rule. -/
theorem deprived_of_sap :
    sapScene.combat.Numbered ∧
      (∃ after, sapAfter.combat.combatant? .player = some after ∧
        sapScene.combat.player.Deprived brawlRules.content.powers "strength" (some 3) after) ∧
        sapAfter.combat.player.powers.get? "strength" = some { id := "strength", amount := 0 } := by
  have hn : sapScene.combat.Numbered := numbered_brawlScene _ _
  have hfits : ∀ id ∈ sapScene.found .self {}, ∀ before,
      sapScene.combat.combatant? id = some before →
        ∀ n ∈ some (3 : Int), Signed.Fits (before.powers.amount "strength" - n) := by
    intro id hmem before hc n hasked
    obtain rfl : id = .player := List.mem_singleton.mp hmem
    obtain rfl := Option.some.inj hc
    obtain rfl := Option.some.inj hasked
    decide +kernel
  obtain ⟨t, hrun, hfound, -⟩ := @deprived_of_removePower brawlRules skip {} sapScene "strength"
    (some 3) (some (.fixed 3)) .self hn rfl hfits
  obtain rfl : t = sapAfter := eq_sceneAfter hrun
  exact ⟨hn, hfound .player (by decide +kernel) _ rfl, by decide +kernel⟩

/-- An effect that removes a power does not always leave what the rule leaves: strength of which
more is asked for than there is stays at zero and not below. -/
theorem sap_spares :
    ¬∀ rules nested ctx power value aim asked id before held left after (s t : Scene),
      s.combat.Numbered → id ∈ s.found aim ctx → s.combat.combatant? id = some before →
        before.powers.get? power = some held → rules.content.powers.contains power = true →
          value.mapM (·.resolve s.combat ctx) = .ok asked →
            before.removePower rules.content.powers power asked = .ok (left, after) →
              (dispatch rules nested ctx (.removePower power value aim)).run s = .ok ((), t) →
                (t.combat.combatant? id).map (·.powers) = some after.powers := by
  intro hclaim
  have hheld : sapScene.combat.player.powers.get? "strength" =
      some { id := "strength", amount := 1 } := by decide +kernel
  have hfits : ∀ n ∈ some (3 : Int),
      Signed.Fits (sapScene.combat.player.powers.amount "strength" - n) :=
    PowerSet.fits_sub_of_get? hheld (by decide)
  have hfollows := hclaim brawlRules skip {} "strength" (some (.fixed 3)) .self (some 3) .player
    sapScene.combat.player { id := "strength", amount := 1 } _ _ sapScene sapAfter
    (numbered_brawlScene _ _) (by decide +kernel) rfl hheld (by decide +kernel) rfl
    (Combatant.removePower_eq_ok hheld hfits) (run_eq_of_isSome (by decide +kernel))
  exact absurd hfollows (by decide +kernel)

end Resolution

end CardCombat
