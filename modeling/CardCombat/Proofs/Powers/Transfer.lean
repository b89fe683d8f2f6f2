import CardCombat.Proofs.Powers.Loss

/-!
# The transfer of powers

Stacks of a power are moved from the first combatant whom one aim finds to everyone whom another aim
finds. They are taken before anyone is looked for to whom they are given, and no more of them are
taken than there are. So where nobody is found the stacks are lost, and a power that would fall
below zero stays at zero, as it does in every loss. Whoever is found is given all that was to be
moved, and everyone else is left alone, in any case.

## Main definitions

* `Combat.Handover` -- so many stacks were taken from one combatant and so many given to others.
* `Combat.AllOrNothing` -- as many were taken as given, or nothing has changed.

## Main results

* `Resolution.run_givePower` -- what giving stacks to one combatant does.
* `Resolution.allOrNothing_iff_of_transferPower` -- when a transfer is all or nothing.
-/

namespace CardCombat

/-- Stacks of a power were taken from one combatant by the rule that removes them, and stacks of it
were given to others by the rule that joins them; everyone else is as before. -/
structure Combat.Handover (catalog : Catalog PowerDefinition) (power : PowerId) (taken given : Int)
    (owner : CombatantId) (receivers : List CombatantId) (before after : Combat) : Prop where
  taken : ∀ combatant, before.combatant? owner = some combatant →
    ∃ left deprived, combatant.removePower catalog power (some taken) = .ok (left, deprived) ∧
      after.combatant? owner = some deprived
  given : ∀ id ∈ receivers, ∀ combatant, before.combatant? id = some combatant →
    ∃ applied endowed, combatant.applyPower catalog power given none = .ok (applied, endowed) ∧
      after.combatant? id = some endowed
  others : ∀ id, id ≠ owner → id ∉ receivers → after.combatant? id = before.combatant? id

/-- As many stacks were taken from one combatant as were given to each of the others, or there are
no others and nothing has changed. -/
def Combat.AllOrNothing (catalog : Catalog PowerDefinition) (power : PowerId) (moved : Int)
    (owner : CombatantId) (receivers : List CombatantId) (before after : Combat) : Prop :=
  if receivers = [] then after = before
  else before.Handover catalog power moved moved owner receivers after

namespace Combat.Handover

variable {catalog : Catalog PowerDefinition} {power : PowerId} {taken given : Int}
  {owner : CombatantId} {receivers : List CombatantId} {before after : Combat}
  {combatant : Combatant} {held : Power}

theorem combatant?_owner (h : before.Handover catalog power taken given owner receivers after)
    (hc : before.combatant? owner = some combatant)
    (hheld : combatant.powers.get? power = some held) (hfits : Signed.Fits (held.amount - taken)) :
    after.combatant? owner = some (combatant.without catalog power (some taken)) := by
  obtain ⟨left, deprived, hremove, hafter⟩ := h.taken combatant hc
  rw [Combatant.removePower_eq_ok hheld (PowerSet.fits_sub_of_get? hheld hfits)] at hremove
  obtain ⟨-, rfl⟩ := Prod.mk.inj (Except.ok.inj hremove)
  exact hafter

/-- As many stacks are taken as are given if there are as many, or if the power goes anyway when its
stack is not positive. -/
theorem even_iff
    (h : before.Handover catalog power (min given held.amount) given owner receivers after)
    (hc : before.combatant? owner = some combatant)
    (hheld : combatant.powers.get? power = some held) (hfits : Signed.Fits (held.amount - given))
    (hmin : Signed.Fits (held.amount - min given held.amount)) :
    before.Handover catalog power given given owner receivers after ↔
      given ≤ held.amount ∨ catalog.goesAtZero power = true := by
  have hamount := PowerSet.amount_of_get? hheld
  have hyield : combatant.powers.yield power (some given) = min given held.amount := by
    rw [← hamount]
    rfl
  have howner := h.combatant?_owner hc hheld hmin
  have hiff : combatant.without catalog power (some (min given held.amount)) =
      combatant.without catalog power (some given) ↔
        given ≤ held.amount ∨ catalog.goesAtZero power = true := by
    have hlessened : combatant.powers.lessened power (catalog.goesAtZero power)
        ((some given).map fun _ => combatant.powers.yield power (some given)) =
          combatant.powers.lessened power (catalog.goesAtZero power) (some given) ↔ _ :=
      PowerSet.lessened_yield_iff hheld
    rw [Option.map_some, hyield, hamount] at hlessened
    refine Iff.trans ⟨congrArg Combatant.powers, fun heq => ?_⟩ (hlessened.trans ?_)
    · exact congrArg (fun powers => { combatant with powers }) heq
    · exact or_congr_left ⟨fun hall => hall given rfl, fun hle n hn => Option.some.inj hn ▸ hle⟩
  rw [← hiff]
  constructor
  · intro heven
    exact Option.some.inj (howner.symm.trans (heven.combatant?_owner hc hheld hfits))
  · intro hsame
    refine ⟨fun found hfound => ?_, h.given, h.others⟩
    obtain rfl := Option.some.inj (hc.symm.trans hfound)
    have hremove : combatant.removePower catalog power (some given) =
        .ok (_, combatant.without catalog power (some given)) :=
      Combatant.removePower_eq_ok hheld (PowerSet.fits_sub_of_get? hheld hfits)
    exact ⟨_, _, hremove, howner.trans (by rw [hsame])⟩

end Combat.Handover

namespace Resolution

variable {rules : Rules} {nested : List Effect → Context → Resolution Unit} {ctx : Context}
  {s t : Scene} {id owner : CombatantId} {power : PowerId} {before after : Combatant}
  {held : Power} {moved : Int}

/-! ## One combatant -/

/-- **Stacks are given** to a living combatant, and events may tell of it. -/
theorem run_givePower {amount : Int} {duration applied : Option Int}
    (hc : s.combat.combatant? id = some before) (halive : before.isAlive = true)
    (hknown : rules.content.powers.contains power = true)
    (happly : before.applyPower rules.content.powers power amount duration = .ok (applied, after)) :
    ∃ events,
      (givePower rules id power amount duration).run s = .ok ((), s.amended id after events) := by
  have hreceives : (some before).filter (fun combatant =>
      combatant.isAlive && rules.content.powers.contains power) = some before := by
    rw [Option.filter_some, halive, hknown]
    rfl
  have htold : ∃ events, (if applied.isSome then report (.powerApplied id power amount)
      else if before.powers.contains power then report (.powerRemoved id power)
      else return : Resolution Unit).run (s.setCombatant id after) =
        .ok ((), s.amended id after events) := by
    split
    · exact ⟨[.powerApplied id power amount], run_report_iff.mpr rfl⟩
    · exact ⟨_, run_if_report_iff.mpr rfl⟩
  obtain ⟨events, htold⟩ := htold
  refine ⟨events, run_bind_iff.mpr ⟨some before, s, run_combatant?_iff.mpr ⟨hc, rfl⟩, ?_⟩⟩
  rw [hreceives]
  refine run_bind_iff.mpr ⟨_, s, run_lift_iff.mpr ⟨happly, rfl⟩, ?_⟩
  exact run_bind_iff.mpr ⟨(), _, run_setCombatant_iff.mpr rfl, htold⟩

/-! ## Everyone who is aimed at -/

variable {value : Option Value} {asked : Option Int} {giver receiver : Aim}
  {others receivers : List CombatantId}

/-- Stacks are given to all of those who were found. -/
theorem run_forM_givePower (hnodup : receivers.Nodup)
    (hknown : rules.content.powers.contains power = true)
    (hgiven : ∀ id ∈ receivers, ∃ combatant, s.combat.combatant? id = some combatant ∧
      combatant.isAlive = true ∧
        (combatant.applyPower rules.content.powers power moved none).toOption.isSome = true) :
    ∃ t, (receivers.forM fun id => givePower rules id power moved none).run s = .ok ((), t) ∧
      (∀ id ∈ receivers, ∀ before, s.combat.combatant? id = some before →
        ∃ after, t.combat.combatant? id = some after ∧
          ∃ applied, before.applyPower rules.content.powers power moved none =
            .ok (applied, after)) ∧
        ∀ id, id ∉ receivers → t.combat.combatant? id = s.combat.combatant? id := by
  refine exists_run_forM hnodup (fun id hmem => ?_) fun id hmem before hbefore u hu => ?_
  · obtain ⟨combatant, hc, -⟩ := hgiven id hmem
    exact ⟨combatant, hc⟩
  · obtain ⟨combatant, hc, halive, hisSome⟩ := hgiven id hmem
    obtain rfl := Option.some.inj (hc.symm.trans hbefore)
    cases happly : combatant.applyPower rules.content.powers power moved none with
    | error fault =>
        rw [happly] at hisSome
        exact absurd hisSome nofun
    | ok result =>
        obtain ⟨applied, after⟩ := result
        have hsame := Combatant.applyPower_sameButPowers happly
        obtain ⟨events, hrun⟩ := run_givePower hu halive hknown happly
        refine ⟨_, after, hrun, ?_, ⟨applied, rfl⟩, fun other hne => ?_⟩
        · rw [Scene.combatant?_amended hu hsame, if_pos rfl]
        · rw [Scene.combatant?_amended hu hsame, if_neg hne]

/-- Nothing is moved from someone who does not hold the power. -/
theorem run_transferPower_eq_sought (hasked : value.mapM (·.resolve s.combat ctx) = .ok asked)
    (howner : s.found giver ctx = owner :: others)
    (hheld : (s.combat.combatant? owner).bind (·.powers.get? power) = none) :
    (dispatch rules nested ctx (.transferPower power value giver receiver)).run s =
      .ok ((), s.sought giver ctx) := by
  refine run_bind_iff.mpr ⟨asked, s, run_amount?_iff.mpr ⟨hasked, rfl⟩, ?_⟩
  refine run_bind_iff.mpr ⟨_, _, run_targets s giver ctx, ?_⟩
  rw [howner]
  refine run_bind_iff.mpr ⟨_, _, run_combatant?_iff.mpr ⟨rfl, rfl⟩, ?_⟩
  rw [Scene.combat_sought, hheld]
  rfl

section Transfers

/-! A positive number of stacks is moved from someone who holds the power to others, and no stack
leaves its range. -/

variable (hn : s.combat.Numbered)
    (hknown : rules.content.powers.contains power = true)
    (hasked : value.mapM (·.resolve s.combat ctx) = .ok asked)
    (howner : s.found giver ctx = owner :: others)
    (hreceivers : (s.sought giver ctx).found receiver ctx = receivers) (hother : owner ∉ receivers)
    (hc : s.combat.combatant? owner = some before) (hheld : before.powers.get? power = some held)
    (hmoved : asked.getD held.amount = moved) (hpos : 0 < moved)
    (hfits : Signed.Fits (held.amount - moved))
    (hgiven : ∀ id ∈ receivers, ∀ combatant, s.combat.combatant? id = some combatant →
      (combatant.applyPower rules.content.powers power moved none).toOption.isSome = true)

include hn hknown hasked howner hreceivers hother hc hheld hmoved hpos hfits hgiven

/-- **A transfer**: the stacks are taken as far as there are so many, and all of them are given to
everyone who is found. -/
theorem run_transferPower :
    ∃ t, (dispatch rules nested ctx (.transferPower power value giver receiver)).run s =
        .ok ((), t) ∧
      s.combat.Handover rules.content.powers power (min moved held.amount) moved owner receivers
        t.combat ∧
      (receivers = [] → t = ((s.sought giver ctx).deprived rules.content.powers owner before power
        (some moved)).sought receiver ctx) := by
  have hamount := PowerSet.amount_of_get? hheld
  have hall : ∀ n ∈ some moved, Signed.Fits (before.powers.amount power - n) :=
    PowerSet.fits_sub_of_get? hheld hfits
  have hyield : before.powers.yield power (some moved) = min moved held.amount := by
    rw [← hamount]
    rfl
  let u := (s.sought giver ctx).deprived rules.content.powers owner before power (some moved)
  have htake : (takePower rules owner power (some moved)).run (s.sought giver ctx) = .ok (_, u) :=
    run_takePower hc hheld hall
  have hkept {id : CombatantId} (hne : id ≠ owner) :
      u.combat.combatant? id = s.combat.combatant? id :=
    (Scene.combatant?_deprived (s := s.sought giver ctx) hc).trans (if_neg hne)
  have hfound : u.found receiver ctx = receivers := by
    rw [← hreceivers]
    refine Scene.found_congr ?_ Scene.rng_amended
    exact Scene.roster_amended (s := s.sought giver ctx) hc Combatant.sameButPowers_without
  have hnodup : receivers.Nodup := hreceivers ▸ Scene.nodup_found (s := s.sought giver ctx) hn
  have hready : ∀ id ∈ receivers, ∃ combatant,
      (u.sought receiver ctx).combat.combatant? id = some combatant ∧ combatant.isAlive = true ∧
        (combatant.applyPower rules.content.powers power moved none).toOption.isSome = true := by
    intro id hmem
    obtain ⟨combatant, hthere, halive⟩ :=
      Scene.exists_of_mem_found (s := s.sought giver ctx) hn (hreceivers ▸ hmem)
    have hne : id ≠ owner := fun heq => hother (heq ▸ hmem)
    exact ⟨combatant, (hkept hne).trans hthere, halive, hgiven id hmem combatant hthere⟩
  obtain ⟨t, hrun, hendowed, hothers⟩ := run_forM_givePower hnodup hknown hready
  refine ⟨t, ?_, ⟨?_, ?_, ?_⟩, ?_⟩
  · refine run_bind_iff.mpr ⟨asked, s, run_amount?_iff.mpr ⟨hasked, rfl⟩, ?_⟩
    refine run_bind_iff.mpr ⟨_, _, run_targets s giver ctx, ?_⟩
    rw [howner]
    refine run_bind_iff.mpr ⟨some before, _, run_combatant?_iff.mpr ⟨hc, rfl⟩, ?_⟩
    rw [Option.bind_some, hheld]
    dsimp only
    rw [hmoved, if_pos hpos]
    refine run_bind_iff.mpr ⟨(), u, run_discard_iff.mpr ⟨_, htake⟩, ?_⟩
    exact run_bind_iff.mpr ⟨_, _, run_targets u receiver ctx, hfound ▸ hrun⟩
  · intro combatant hcombatant
    obtain rfl := Option.some.inj (hc.symm.trans hcombatant)
    have hmin := PowerSet.fits_sub_of_get? hheld (PowerSet.fits_sub_min hfits)
    refine ⟨_, _, Combatant.removePower_eq_ok hheld hmin, ?_⟩
    rw [hothers owner hother, ← hyield]
    exact (Scene.combatant?_deprived (s := s.sought giver ctx) hc).trans (if_pos rfl)
  · intro id hmem combatant hthere
    have hne : id ≠ owner := fun heq => hother (heq ▸ hmem)
    obtain ⟨after, hafter, applied, happly⟩ :=
      hendowed id hmem combatant ((hkept hne).trans hthere)
    exact ⟨applied, after, happly, hafter⟩
  · exact fun id hne hmem => (hothers id hmem).trans (hkept hne)
  · rintro rfl
    exact (run_pure_iff.mp hrun).2.symm

/-- **All or nothing.** A transfer takes from the first whom one aim finds as many stacks as it
gives to everyone whom the other aim finds, or changes nothing if that aim finds nobody, exactly if
it finds someone and there are as many stacks or the power goes when its stack is not positive, or
if it finds nobody and the stack was zero. In any case everyone who is found is given as many stacks
as were to be moved, and everyone else keeps what it had. -/
theorem allOrNothing_iff_of_transferPower :
    ∃ t, (dispatch rules nested ctx (.transferPower power value giver receiver)).run s =
        .ok ((), t) ∧
      s.combat.Handover rules.content.powers power (min moved held.amount) moved owner receivers
        t.combat ∧
      (s.combat.AllOrNothing rules.content.powers power moved owner receivers t.combat ↔
        if receivers = [] then
          held.amount = 0 ∧ rules.content.powers.goesAtZero power = false
        else moved ≤ held.amount ∨ rules.content.powers.goesAtZero power = true) := by
  obtain ⟨t, hrun, hhandover, hnobody⟩ := run_transferPower hn hknown hasked howner hreceivers
    hother hc hheld hmoved hpos hfits hgiven
  refine ⟨t, hrun, hhandover, ?_⟩
  have hamount := PowerSet.amount_of_get? hheld
  have hmin : Signed.Fits (held.amount - min moved held.amount) := PowerSet.fits_sub_min hfits
  unfold Combat.AllOrNothing
  by_cases hnil : receivers = []
  · rw [if_pos hnil, if_pos hnil]
    constructor
    · intro hcombat
      have hsame := hhandover.combatant?_owner hc hheld hmin
      rw [hcombat, hc] at hsame
      have hpowers := congrArg Combatant.powers (Option.some.inj hsame).symm
      obtain ⟨hstack, hstays⟩ := (PowerSet.withStack_eq_self_iff hheld).mp hpowers
      have hzero : held.amount = 0 := by omega
      refine ⟨hzero, ?_⟩
      rwa [hstack, hzero] at hstays
    · rintro ⟨hzero, hstays⟩
      rw [hnobody hnil, Scene.deprived_eq_self (s := s.sought giver ctx) hc hheld hzero
        (Int.le_of_lt hpos) hstays]
      rfl
  · rw [if_neg hnil, if_neg hnil]
    exact hhandover.even_iff hc hheld hfits hmin

end Transfers

end Resolution

/-! ## A gift of strength -/

/-- The player has three stacks of strength. -/
def giftScene : Scene := brawlScene [{ id := "strength", amount := 3 }] []

/-- The player gives two of them away. -/
def gift (receiver : Aim) : Effect := .transferPower "strength" (some (.fixed 2)) .self receiver

/-- The scene after that, with the enemy chosen. -/
def giftAfter (receiver : Aim) : Scene :=
  Resolution.sceneAfter (Resolution.dispatch brawlRules Resolution.skip { target := some ⟨1⟩ }
    (gift receiver)) giftScene

namespace Resolution

/-- A gift to the enemy is all or nothing. -/
theorem allOrNothing_of_gift :
    giftScene.combat.AllOrNothing brawlRules.content.powers "strength" 2 .player [⟨1⟩]
      (giftAfter .frontEnemy).combat := by
  have hgiven : ∀ id ∈ [(⟨1⟩ : CombatantId)], ∀ combatant,
      giftScene.combat.combatant? id = some combatant →
        (combatant.applyPower brawlRules.content.powers "strength" 2 none).toOption.isSome =
          true := by
    intro id hmem combatant hc
    obtain rfl := List.mem_singleton.mp hmem
    obtain rfl := Option.some.inj hc
    decide +kernel
  have hheld : giftScene.combat.player.powers.get? "strength" =
      some { id := "strength", amount := 3 } := by decide +kernel
  obtain ⟨t, hrun, -, hiff⟩ := @allOrNothing_iff_of_transferPower brawlRules skip
    { target := some ⟨1⟩ } giftScene .player "strength" giftScene.combat.player
    { id := "strength", amount := 3 } 2 (some (.fixed 2)) (some 2) .self .frontEnemy [] [⟨1⟩]
    (numbered_brawlScene _ _) (by decide +kernel) rfl (by decide +kernel) (by decide +kernel)
    (by decide) rfl hheld rfl (by decide) (by decide) hgiven
  obtain rfl : t = giftAfter .frontEnemy := eq_sceneAfter hrun
  exact hiff.mpr (by decide +kernel)

/-- A transfer is not always all or nothing: strength that is to go to the enemies other than the
chosen one, where there is no other, is lost. -/
theorem gift_vanishes :
    ¬∀ rules nested ctx power value giver receiver asked owner others receivers before held moved
        (s t : Scene), s.combat.Numbered → rules.content.powers.contains power = true →
      value.mapM (·.resolve s.combat ctx) = .ok asked → s.found giver ctx = owner :: others →
        (s.sought giver ctx).found receiver ctx = receivers → owner ∉ receivers →
          s.combat.combatant? owner = some before → before.powers.get? power = some held →
            asked.getD held.amount = moved → 0 < moved → Signed.Fits (held.amount - moved) →
              (dispatch rules nested ctx (.transferPower power value giver receiver)).run s =
                  .ok ((), t) →
                s.combat.AllOrNothing rules.content.powers power moved owner receivers
                  t.combat := by
  intro hclaim
  have hnothing := hclaim brawlRules skip { target := some ⟨1⟩ } "strength" (some (.fixed 2)) .self
    .otherEnemies (some 2) .player [] [] giftScene.combat.player { id := "strength", amount := 3 } 2
    giftScene (giftAfter .otherEnemies) (numbered_brawlScene _ _) (by decide +kernel) rfl
    (by decide +kernel) (by decide +kernel) List.not_mem_nil rfl (by decide +kernel) rfl (by decide)
    (by decide) (run_eq_of_isSome (by decide +kernel))
  have hcombat : (giftAfter .otherEnemies).combat = giftScene.combat := hnothing
  have hleft : ((giftAfter .otherEnemies).combat.player.powers.amount "strength") = 1 := by
    decide +kernel
  rw [hcombat] at hleft
  exact absurd hleft (by decide +kernel)

end Resolution

end CardCombat
