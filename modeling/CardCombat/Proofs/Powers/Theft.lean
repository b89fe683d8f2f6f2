import CardCombat.Proofs.Powers.Transfer

/-!
# The theft of powers

Stacks of a power are taken from a victim and given to whoever steals them. What is taken is taken
whatever it comes to, and it is given only if it is positive. So if it is negative, because less
than nothing was asked for or there was less than nothing, the victim gains and nobody loses.

## Main definitions

* `Combat.stack` -- the stack of a power that someone holds.
* `Combatant.loot` -- what a theft takes from a combatant.
* `Combat.Conserves` -- a victim has not gained, and victim and thief hold as much as before.

## Main results

* `Resolution.run_stealPower` -- the stacks of victim and thief after a theft.
* `Resolution.conserves_iff_of_stealPower` -- a theft conserves stacks exactly if neither less than
  nothing was asked for nor there was less than nothing.
-/

namespace CardCombat

/-- The stack of a power that a combatant holds, zero if it holds none or is not there. -/
def Combat.stack (combat : Combat) (id : CombatantId) (power : PowerId) : Int :=
  ((combat.combatant? id).map (·.powers.amount power)).getD 0

/-- The victim of a theft has gained stacks of no power, and victim and thief hold as many stacks of
each power together as before. -/
structure Combat.Conserves (thief victim : CombatantId) (before after : Combat) : Prop where
  lowered : ∀ power, after.stack victim power ≤ before.stack victim power
  total : ∀ power, after.stack victim power + after.stack thief power =
    before.stack victim power + before.stack thief power

/-- How many stacks of a power a theft of the chosen power takes from a combatant. -/
def Combatant.loot (combatant : Combatant) (chosen : Option PowerId) (asked : Option Int)
    (power : PowerId) : Int :=
  if chosen = some power ∧ combatant.powers.contains power then combatant.powers.yield power asked
  else 0

theorem Combat.stack_of_combatant? {combat : Combat} {id : CombatantId} {combatant : Combatant}
    {power : PowerId} (hc : combat.combatant? id = some combatant) :
    combat.stack id power = combatant.powers.amount power := by
  unfold stack
  rw [hc]
  rfl

/-- Stacks have passed from a victim to a thief, as far as they were positive. -/
def Combat.Robbed (thief victim : CombatantId) (loot : PowerId → Int) (before after : Combat) :
    Prop :=
  ∀ power, after.stack victim power = before.stack victim power - loot power ∧
    after.stack thief power = before.stack thief power + max (loot power) 0

/-- A theft conserves stacks if nothing that it took was negative. -/
theorem Combat.Robbed.conserves_iff {thief victim : CombatantId} {loot : PowerId → Int}
    {before after : Combat} (h : before.Robbed thief victim loot after) :
    before.Conserves thief victim after ↔ ∀ power, 0 ≤ loot power := by
  constructor
  · intro hc power
    obtain ⟨hvictim, -⟩ := h power
    have hle := hc.lowered power
    omega
  · refine fun hpos => ⟨fun power => ?_, fun power => ?_⟩
    · obtain ⟨hvictim, -⟩ := h power
      have hloot := hpos power
      omega
    · obtain ⟨hvictim, hthief⟩ := h power
      have hloot := hpos power
      omega

/-- Where there was nothing to take nothing changes. -/
theorem Combat.robbed_self {thief victim : CombatantId} {loot : PowerId → Int} {combat : Combat}
    (h : ∀ power, loot power = 0) : combat.Robbed thief victim loot combat := by
  intro power
  have hloot := h power
  omega

namespace Combatant

variable {catalog : Catalog PowerDefinition} {combatant : Combatant} {held : Power}
  {power other : PowerId} {asked : Option Int}

theorem loot_self (hheld : combatant.powers.get? power = some held) :
    combatant.loot (some power) asked power = combatant.powers.yield power asked := by
  unfold loot PowerSet.contains
  rw [hheld]
  exact if_pos ⟨rfl, rfl⟩

theorem loot_ne (hne : other ≠ power) : combatant.loot (some power) asked other = 0 :=
  if_neg fun h => hne (Option.some.inj h.1).symm

theorem loot_of_none (hheld : combatant.powers.get? power = none) :
    combatant.loot (some power) asked other = 0 := by
  refine if_neg fun h => ?_
  obtain rfl := Option.some.inj h.1
  have hcontains := h.2
  unfold PowerSet.contains at hcontains
  rw [hheld] at hcontains
  exact absurd hcontains nofun

theorem loot_none : combatant.loot none asked other = 0 := if_neg fun h => absurd h.1 nofun

/-- A theft takes nothing negative if neither less than nothing is asked for nor there is less than
nothing of the chosen power. -/
theorem loot_nonneg_iff {chosen : Option PowerId} :
    (∀ other, 0 ≤ combatant.loot chosen asked other) ↔
      ∀ power ∈ chosen, ∀ held, combatant.powers.get? power = some held →
        (∀ n ∈ asked, 0 ≤ n) ∧ 0 ≤ held.amount := by
  cases chosen with
  | none => exact iff_of_true (fun _ => Int.le_of_eq loot_none.symm) nofun
  | some power =>
      constructor
      · intro hpos chosen hmem held hheld
        obtain rfl := Option.some.inj hmem
        exact (PowerSet.yield_nonneg_iff hheld).mp (loot_self hheld ▸ hpos power)
      · intro h other
        by_cases hother : other = power
        · subst hother
          cases hheld : combatant.powers.get? other with
          | none => exact Int.le_of_eq (loot_of_none hheld).symm
          | some held =>
              rw [loot_self hheld]
              exact (PowerSet.yield_nonneg_iff hheld).mpr (h other rfl held hheld)
        · exact Int.le_of_eq (loot_ne hother).symm

/-- What remains to a victim is all but the loot. -/
theorem amount_without (hnodup : (combatant.powers.map (·.id)).Nodup)
    (hheld : combatant.powers.get? power = some held) (other : PowerId) :
    (combatant.without catalog power
      (asked.map fun _ => combatant.powers.yield power asked)).powers.amount other =
        combatant.powers.amount other - combatant.loot (some power) asked other := by
  by_cases hne : other = power
  · subst hne
    rw [loot_self hheld]
    exact PowerSet.amount_lessened_yield hnodup hheld
  · rw [loot_ne hne, Int.sub_zero]
    exact PowerSet.amount_congr (PowerSet.get?_lessened_ne hne)

/-- Stacks that are given to someone with sound powers all stay. -/
theorem amount_given {definition : PowerDefinition} {gain : Int}
    (hsound : combatant.powers.Sound catalog) (hfind : catalog.find? power = some definition)
    (hgain : 0 ≤ gain) :
    PowerSet.staying definition.removeAtZero (combatant.powers.amount power + gain) =
      combatant.powers.amount power + gain := by
  cases hgoes : definition.removeAtZero with
  | false =>
      unfold PowerSet.staying
      rw [Bool.and_false]
      rfl
  | true =>
      refine PowerSet.staying_of_nonneg ?_
      cases hheld : combatant.powers.get? power with
      | none =>
          rw [PowerSet.amount_of_get?_eq_none hheld]
          omega
      | some held =>
          obtain ⟨known, hknown, hleast⟩ :=
            hsound.sustained held (List.mem_of_find?_eq_some hheld)
          rw [PowerSet.id_of_get? hheld, hfind] at hknown
          obtain rfl := Option.some.inj hknown
          have hpos := hleast hgoes
          rw [PowerSet.amount_of_get? hheld]
          omega

end Combatant

namespace Resolution

variable {rules : Rules} {nested : List Effect → Context → Resolution Unit} {ctx : Context}
  {s t : Scene} {thief victim : CombatantId} {power : PowerId} {asked : Option Int}
  {before robber : Combatant} {definition : PowerDefinition}

/-- Whoever is given stacks holds so many more of them. -/
theorem run_grant {gain : Int} (hthief : s.combat.combatant? thief = some robber)
    (halive : robber.isAlive = true) (hsound : robber.powers.Sound rules.content.powers)
    (hfind : rules.content.powers.find? power = some definition)
    (hstacking : definition.stacking = .intensity) (hpos : 0 < gain)
    (hfits : Signed.Fits (robber.powers.amount power + gain)) :
    ∃ t, (givePower rules thief power gain none).run s = .ok ((), t) ∧
      (∀ other, t.combat.stack thief other =
        s.combat.stack thief other + if other = power then gain else 0) ∧
        ∀ id, id ≠ thief → t.combat.combatant? id = s.combat.combatant? id := by
  have hknown : rules.content.powers.contains power = true := by
    unfold Catalog.contains
    rw [hfind]
    rfl
  obtain ⟨applied, powers, happly, hamount, hothers⟩ :=
    Combatant.applyPower_of_intensity none hfind hstacking hsound.nodup hfits
  rw [Combatant.amount_given hsound hfind (Int.le_of_lt hpos)] at hamount
  obtain ⟨events, hrun⟩ := run_givePower hthief halive hknown happly
  have hafter (id : CombatantId) : (s.amended thief _ events).combat.combatant? id = _ :=
    Scene.combatant?_amended hthief (Combatant.applyPower_sameButPowers happly)
  refine ⟨_, hrun, fun other => ?_, fun id hne => (hafter id).trans (if_neg hne)⟩
  rw [Combat.stack_of_combatant? ((hafter thief).trans (if_pos rfl)),
    Combat.stack_of_combatant? hthief]
  split
  case isTrue hother => exact hother ▸ hamount
  case isFalse hother =>
    rw [Int.add_zero]
    exact PowerSet.amount_congr (hothers other hother)

/-- **A power is stolen** by someone who is alive. -/
theorem run_rob (hne : thief ≠ victim) (hvictim : s.combat.combatant? victim = some before)
    (hthief : s.combat.combatant? thief = some robber) (halive : robber.isAlive = true)
    (hnodup : (before.powers.map (·.id)).Nodup)
    (hsound : robber.powers.Sound rules.content.powers)
    (hfind : rules.content.powers.find? power = some definition)
    (hstacking : definition.stacking = .intensity)
    (hfits : ∀ n ∈ asked, Signed.Fits (before.powers.amount power - n))
    (hgain : Signed.Fits
      (robber.powers.amount power + max (before.loot (some power) asked power) 0)) :
    ∃ t, (do
        let taken ← takePower rules victim power asked
        if 0 < taken then givePower rules thief power taken none : Resolution Unit).run s =
          .ok ((), t) ∧
      s.combat.Robbed thief victim (before.loot (some power) asked) t.combat := by
  cases hheld : before.powers.get? power with
  | none =>
      refine ⟨s, ?_, Combat.robbed_self fun other => Combatant.loot_of_none hheld⟩
      exact run_bind_iff.mpr ⟨0, s, run_takePower_eq_zero hvictim hheld, rfl⟩
  | some held =>
      have hloot : before.loot (some power) asked power = before.powers.yield power asked :=
        Combatant.loot_self hheld
      rw [hloot] at hgain
      let u := s.deprived rules.content.powers victim before power asked
      have htake : (takePower rules victim power asked).run s = .ok (_, u) :=
        run_takePower hvictim hheld hfits
      have huvictim : u.combat.combatant? victim = some _ :=
        (Scene.combatant?_deprived hvictim).trans (if_pos rfl)
      have huthief : u.combat.combatant? thief = s.combat.combatant? thief :=
        (Scene.combatant?_deprived hvictim).trans (if_neg hne)
      have hlost (other : PowerId) : u.combat.stack victim other =
          s.combat.stack victim other - before.loot (some power) asked other := by
        rw [Combat.stack_of_combatant? huvictim, Combat.stack_of_combatant? hvictim]
        exact Combatant.amount_without hnodup hheld other
      have hkept (other : PowerId) : u.combat.stack thief other = s.combat.stack thief other := by
        unfold Combat.stack
        rw [huthief]
      by_cases hpos : 0 < before.powers.yield power asked
      · rw [Int.max_eq_left (Int.le_of_lt hpos)] at hgain
        obtain ⟨t, hgive, hgained, hothers⟩ := run_grant (s := u) (huthief.trans hthief) halive
          hsound hfind hstacking hpos hgain
        refine ⟨t, run_bind_iff.mpr ⟨_, u, htake, ?_⟩, fun other => ⟨?_, ?_⟩⟩
        · rw [if_pos hpos]
          exact hgive
        · rw [← hlost other]
          unfold Combat.stack
          rw [hothers victim hne.symm]
        · rw [hgained other, hkept other]
          split
          case isTrue hother =>
            rw [hother, hloot]
            omega
          case isFalse hother =>
            rw [Combatant.loot_ne hother]
            omega
      · refine ⟨u, run_bind_iff.mpr ⟨_, u, htake, ?_⟩, fun other => ⟨hlost other, ?_⟩⟩
        · rw [if_neg hpos]
          rfl
        · rw [hkept other]
          by_cases hother : other = power
          · rw [hother, hloot]
            omega
          · rw [Combatant.loot_ne hother]
            omega

/-! ## The effect -/

theorem powerToSteal_spec {chosen : Option PowerId} {named : Option PowerId}
    (h : (powerToSteal rules named before).run s = .ok (chosen, t)) :
    ∃ rng, t = { s with rng } := by
  unfold powerToSteal at h
  split at h
  · exact ⟨s.rng, (run_pure_iff.mp h).2.symm⟩
  · exact ⟨_, (run_draw_iff.mp h).2.symm⟩

variable {value : Option Value} {aim : Aim} {named chosen : Option PowerId}

section Thefts

/-! Someone who is alive steals from one victim, everyone holds sound powers, the stacks of the
chosen power are summed, and no stack leaves its range. -/

variable (hasked : value.mapM (·.resolve s.combat ctx) = .ok asked)
    (hfound : s.found aim ctx = [victim]) (hne : ctx.source ≠ victim)
    (hvictim : s.combat.combatant? victim = some before)
    (hthief : s.combat.combatant? ctx.source = some robber) (halive : robber.isAlive = true)
    (hsound : s.combat.Everyone fun combatant => combatant.powers.Sound rules.content.powers)
    (hchosen : (powerToSteal rules named before).run (s.sought aim ctx) = .ok (chosen, t))
    (hstacking : ∀ power ∈ chosen, ∃ definition,
      rules.content.powers.find? power = some definition ∧ definition.stacking = .intensity)
    (hfits : ∀ power ∈ chosen, (∀ n ∈ asked, Signed.Fits (before.powers.amount power - n)) ∧
      Signed.Fits (robber.powers.amount power + max (before.loot chosen asked power) 0))

include hasked hfound hne hvictim hthief halive hsound hchosen hstacking hfits

/-- **A theft** from one victim: of the power that is chosen, as many stacks are taken as are asked
for and there, and given to the thief if that is a positive number. -/
theorem run_stealPower :
    ∃ u, (dispatch rules nested ctx (.stealPower named value aim)).run s = .ok ((), u) ∧
      s.combat.Robbed ctx.source victim (before.loot chosen asked) u.combat := by
  obtain ⟨rng, rfl⟩ := powerToSteal_spec hchosen
  have hamount : (amount? value ctx).run s = .ok (asked, s) := run_amount?_iff.mpr ⟨hasked, rfl⟩
  cases chosen with
  | none =>
      refine ⟨{ s.sought aim ctx with rng }, run_bind_iff.mpr ⟨asked, s, hamount, ?_⟩,
        Combat.robbed_self fun _ => Combatant.loot_none⟩
      exact run_forTargets_one hfound hvictim (run_bind_iff.mpr ⟨none, _, hchosen, rfl⟩)
  | some power =>
      obtain ⟨definition, hfind, hintensity⟩ := hstacking power rfl
      obtain ⟨hloss, hgain⟩ := hfits power rfl
      obtain ⟨u, hrob, hrobbed⟩ := run_rob (s := { s.sought aim ctx with rng }) hne hvictim hthief
        halive (hsound.combatant? hvictim).nodup (hsound.combatant? hthief) hfind hintensity hloss
        hgain
      refine ⟨u, run_bind_iff.mpr ⟨asked, s, hamount, ?_⟩, hrobbed⟩
      exact run_forTargets_one hfound hvictim (run_bind_iff.mpr ⟨some power, _, hchosen, hrob⟩)

/-- **The conservation of stacks.** A theft from one victim leaves it with no more stacks of any
power than before, and victim and thief together with as many, exactly if neither less than nothing
was asked for nor there was less than nothing of the chosen power to take. -/
theorem conserves_iff_of_stealPower :
    ∃ u, (dispatch rules nested ctx (.stealPower named value aim)).run s = .ok ((), u) ∧
      (s.combat.Conserves ctx.source victim u.combat ↔
        ∀ power ∈ chosen, ∀ held, before.powers.get? power = some held →
          (∀ n ∈ asked, 0 ≤ n) ∧ 0 ≤ held.amount) := by
  obtain ⟨u, hrun, hrobbed⟩ := run_stealPower hasked hfound hne hvictim hthief halive hsound hchosen
    hstacking hfits
  exact ⟨u, hrun, hrobbed.conserves_iff.trans Combatant.loot_nonneg_iff⟩

end Thefts

end Resolution

/-! ## Filched strength -/

/-- An enemy has three stacks of strength. -/
def filchScene : Scene := brawlScene [] [{ id := "strength", amount := 3 }]

/-- That enemy. -/
def filchVictim : Combatant :=
  { id := ⟨1⟩, name := "Rat", health := 10, maxHealth := 10
    powers := [{ id := "strength", amount := 3 }] }

/-- The player steals so many of them. -/
def filch (amount : Int) : Effect := .stealPower (some "strength") (some (.fixed amount)) .enemy

/-- The scene after that. -/
def filchAfter (amount : Int) : Scene :=
  Resolution.sceneAfter (Resolution.dispatch brawlRules Resolution.skip {} (filch amount))
    filchScene

/-- Strength is summed, and it stays. -/
theorem strength_stays : ∃ definition,
    brawlRules.content.powers.find? "strength" = some definition ∧
      definition.stacking = .intensity ∧ definition.removeAtZero = false := by
  have hany : ((brawlRules.content.powers.find? "strength").any fun definition =>
      decide (definition.stacking = .intensity) && !definition.removeAtZero) = true := by
    decide +kernel
  obtain ⟨definition, hfind, h⟩ := (Option.any_eq_true _ _).mp hany
  rw [Bool.and_eq_true, decide_eq_true_iff, Bool.not_eq_true'] at h
  exact ⟨definition, hfind, h⟩

theorem sound_filchScene : filchScene.combat.Everyone fun combatant =>
    combatant.powers.Sound brawlRules.content.powers := by
  refine ⟨PowerSet.Sound.nil, fun enemy hmem => ?_⟩
  obtain rfl := List.mem_singleton.mp hmem
  refine ⟨List.nodup_singleton _, fun power hpower => ?_⟩
  obtain rfl := List.mem_singleton.mp hpower
  obtain ⟨definition, hfind, -, hstays⟩ := strength_stays
  exact ⟨definition, hfind, fun hgoes => absurd (hstays.symm.trans hgoes) nofun⟩

namespace Resolution

/-- The theft of two stacks conserves them. -/
theorem conserves_of_filch : filchScene.combat.Conserves .player ⟨1⟩ (filchAfter 2).combat := by
  obtain ⟨definition, hfind, hstacking, -⟩ := strength_stays
  have hstrength : ∀ power ∈ some "strength", ∃ definition,
      brawlRules.content.powers.find? power = some definition ∧
        definition.stacking = .intensity := by
    intro power hmem
    obtain rfl := Option.some.inj hmem
    exact ⟨definition, hfind, hstacking⟩
  have hfits : ∀ power ∈ some "strength",
      (∀ n ∈ some (2 : Int), Signed.Fits (filchVictim.powers.amount power - n)) ∧
        Signed.Fits (filchScene.combat.player.powers.amount power +
          max (filchVictim.loot (some "strength") (some 2) power) 0) := by
    intro power hmem
    obtain rfl := Option.some.inj hmem
    refine ⟨fun n hn => ?_, by decide +kernel⟩
    obtain rfl := Option.some.inj hn
    decide +kernel
  obtain ⟨u, hrun, hiff⟩ := @conserves_iff_of_stealPower brawlRules skip {} filchScene
    (filchScene.sought .enemy {}) ⟨1⟩ (some 2) filchVictim filchScene.combat.player
    (some (.fixed 2)) .enemy (some "strength") (some "strength") rfl (by decide +kernel) (by decide)
    rfl rfl (by decide) sound_filchScene rfl hstrength hfits
  obtain rfl : u = filchAfter 2 := eq_sceneAfter hrun
  refine hiff.mpr fun power hmem held hheld => ⟨fun n hn => ?_, ?_⟩
  · obtain rfl := Option.some.inj hn
    decide
  · obtain rfl := Option.some.inj hmem
    obtain rfl : { id := "strength", amount := 3 } = held := by
      have hget : PowerSet.get? [{ id := "strength", amount := 3 }] "strength" =
          some { id := "strength", amount := 3 } := by decide
      exact Option.some.inj (hget.symm.trans hheld)
    decide

/-- A theft does not always conserve stacks: if less than nothing is asked for the victim gains what
nobody loses. -/
theorem filch_enriches :
    ¬∀ rules nested ctx value asked aim named chosen victim before robber (s t u : Scene),
      value.mapM (·.resolve s.combat ctx) = .ok asked → s.found aim ctx = [victim] →
        ctx.source ≠ victim → s.combat.combatant? victim = some before →
          s.combat.combatant? ctx.source = some robber → robber.isAlive = true →
            (s.combat.Everyone fun combatant => combatant.powers.Sound rules.content.powers) →
              (powerToSteal rules named before).run (s.sought aim ctx) = .ok (chosen, t) →
                (∀ power ∈ chosen, ∃ definition,
                  rules.content.powers.find? power = some definition ∧
                    definition.stacking = .intensity) →
                  (dispatch rules nested ctx (.stealPower named value aim)).run s = .ok ((), u) →
                    s.combat.Conserves ctx.source victim u.combat := by
  intro hclaim
  obtain ⟨definition, hfind, hstacking, -⟩ := strength_stays
  have hconserves := hclaim brawlRules skip {} (some (.fixed (-2))) (some (-2)) .enemy
    (some "strength") (some "strength") ⟨1⟩ filchVictim filchScene.combat.player filchScene
    (filchScene.sought .enemy {}) (filchAfter (-2)) rfl (by decide +kernel) (by decide) rfl rfl
    (by decide) sound_filchScene rfl
    (fun power hmem => by
      obtain rfl := Option.some.inj hmem
      exact ⟨definition, hfind, hstacking⟩)
    (run_eq_of_isSome (by decide +kernel))
  exact absurd (hconserves.lowered "strength") (by decide +kernel)

end Resolution

end CardCombat
