import CardCombat.Proofs.Overflow.Ranges
import CardCombat.Proofs.Overflow.Secure
import CardCombat.Proofs.Powers.Loss
import CardCombat.Proofs.Resolution.Blows

/-!
# A stronger hit does no less

The damage of a hit is made of its base in stages: the penalty of the intent, the powers of the
attacker, those of the target, its affinity, and the combo. Powers can add and take away, and a
percentage can be below minus a hundred; but each stage ends with an amount that is not negative,
and on such amounts no stage turns more into less, however it is rounded. Behind block and barrier
the same is true of the health that is lost. So of two hits that differ in their bases, or in the
penalty, the stronger one reports at least as much damage and leaves at most as much health.

## Main definitions

* `Combatant.unguarded` -- the damage that gets past block and barrier.
* `Resolution.landHit` -- a hit up to the moment at which its damage has landed.
* `Resolution.Lands` -- what is reported until then, whom it leaves, and how the hit goes on.

## Main results

* `Combatant.underModifiers_mono`, `Combo.scale_mono`, `Hit.withCombo_mono` -- the stages.
* `Resolution.resolveHit_eq` -- a hit is its landing and what follows.
* `Resolution.lands_mono` -- two hits.
-/

namespace CardCombat

variable {a b x y : Int}

/-! ## The stages -/

namespace Combatant

variable {modifiers : List (Int × Modifier)}

/-- One percentage. Where it takes more than everything, nothing is left of any amount. -/
theorem exactScale_mono {m : Int × Modifier} (ha : 0 ≤ a) (hab : a ≤ b) :
    0 ≤ exactScale a m ∧ exactScale a m ≤ exactScale b m := by
  unfold exactScale
  split
  · by_cases hfactor : 0 ≤ 100 + m.2.percent
    · have hproduct : a * (100 + m.2.percent) ≤ b * (100 + m.2.percent) :=
        Int.mul_le_mul_of_nonneg_right hab hfactor
      omega
    · have hlow : a * (100 + m.2.percent) ≤ 0 := Int.mul_nonpos_of_nonneg_of_nonpos ha (by omega)
      have hhigh : b * (100 + m.2.percent) ≤ 0 :=
        Int.mul_nonpos_of_nonneg_of_nonpos (by omega) (by omega)
      omega
  · exact ⟨ha, hab⟩

theorem foldl_exactScale_mono (ha : 0 ≤ a) (hab : a ≤ b) :
    0 ≤ modifiers.foldl exactScale a ∧
      modifiers.foldl exactScale a ≤ modifiers.foldl exactScale b := by
  induction modifiers generalizing a b with
  | nil => exact ⟨ha, hab⟩
  | cons m modifiers ih =>
      obtain ⟨hpos, hle⟩ := exactScale_mono (m := m) ha hab
      exact ih hpos hle

theorem eq_of_underModifiers (h : underModifiers a modifiers = .ok x) :
    x = modifiers.foldl exactScale (max (a + exactSum modifiers) 0) := by
  obtain ⟨sum, hsum, h⟩ := bind_eq_ok.mp h
  obtain ⟨-, rfl⟩ := flatSum_eq_ok_iff.mp hsum
  obtain ⟨total, htotal, h⟩ := bind_eq_ok.mp h
  obtain ⟨-, rfl⟩ := Signed.add_eq_ok_iff.mp htotal
  exact ((foldlM_eq_ok_iff scaleBy_eq_ok_iff).mp h).2

/-- **Powers** make no less of more. -/
theorem underModifiers_mono (hab : a ≤ b) (hx : underModifiers a modifiers = .ok x)
    (hy : underModifiers b modifiers = .ok y) : 0 ≤ x ∧ x ≤ y := by
  rw [eq_of_underModifiers hx, eq_of_underModifiers hy]
  exact foldl_exactScale_mono (by omega) (by omega)

end Combatant

theorem Multiplier.scale_nonneg (factor : Multiplier) (ha : 0 ≤ a) : 0 ≤ factor.scale a := by
  have hzero : factor.scale 0 = 0 := by
    rw [scale, Int.zero_mul, Int.zero_ediv]
    rfl
  exact hzero ▸ factor.scale_mono ha

theorem Combo.bonus_nonneg {element : Element} {hasStatus : PowerId → Bool} {combo : Combo}
    (h : find? element hasStatus = some combo) : 0 ≤ combo.bonus := by
  have hall : ∀ combo ∈ table, 0 ≤ combo.bonus := by decide
  exact hall combo (List.mem_of_find?_eq_some h)

/-- **A combo** makes no less of more. -/
theorem Combo.scale_mono {combo : Combo} (hbonus : 0 ≤ combo.bonus) (ha : 0 ≤ a) (hab : a ≤ b)
    (hx : combo.scale a = .ok x) (hy : combo.scale b = .ok y) : 0 ≤ x ∧ x ≤ y := by
  obtain ⟨-, rfl⟩ := Signed.add_eq_ok_iff.mp hx
  obtain ⟨-, rfl⟩ := Signed.add_eq_ok_iff.mp hy
  have hpos := combo.multiplier.scale_nonneg ha
  have hle := combo.multiplier.scale_mono hab
  omega

namespace Hit

variable {powers : Catalog PowerDefinition} {combat : Combat} {ctx : Context}
  {defender : Combatant} {hit : Hit} {weak strong more less : Int}

/-- What the source of a hit makes of it, if it is there and the hit is an attack. -/
def dealt (powers : Catalog PowerDefinition) (source : Option Combatant) (triggered : Bool)
    (base : Int) : Except Fault Int :=
  match source with
  | some attacker => if triggered then pure base else attacker.damageDealt powers base
  | none => pure base

theorem damage_eq : hit.damage powers combat ctx defender = (do
    let base ← Signed.sub hit.base ctx.damagePenalty
    let dealt ← dealt powers (combat.combatant? ctx.source) ctx.triggered (max base 0)
    let taken ← defender.damageTaken powers dealt
    return (affinity (defender.isVulnerableTo hit.element)
      (defender.resists hit.element)).scale taken) := by
  unfold damage dealt
  cases combat.combatant? ctx.source with
  | none => rfl
  | some attacker => cases ctx.triggered <;> rfl

/-- **The attacker** makes no less of more. -/
theorem dealt_mono {source : Option Combatant} {triggered : Bool} (ha : 0 ≤ a) (hab : a ≤ b)
    (hx : dealt powers source triggered a = .ok x) (hy : dealt powers source triggered b = .ok y) :
    0 ≤ x ∧ x ≤ y := by
  unfold dealt at hx hy
  cases source with
  | none =>
      obtain rfl := Except.ok.inj hx
      obtain rfl := Except.ok.inj hy
      exact ⟨ha, hab⟩
  | some attacker =>
      cases triggered with
      | true =>
          obtain rfl := Except.ok.inj hx
          obtain rfl := Except.ok.inj hy
          exact ⟨ha, hab⟩
      | false => exact Combatant.underModifiers_mono hab hx hy

/-- The damage of two hits that differ in their bases and penalties. -/
theorem damage_mono (hbase : weak ≤ strong) (hpenalty : less ≤ more)
    (hx : { hit with base := weak }.damage powers combat { ctx with damagePenalty := more }
      defender = .ok x)
    (hy : { hit with base := strong }.damage powers combat { ctx with damagePenalty := less }
      defender = .ok y) : 0 ≤ x ∧ x ≤ y := by
  rw [damage_eq] at hx hy
  obtain ⟨low, hlow, hx⟩ := bind_eq_ok.mp hx
  obtain ⟨high, hhigh, hy⟩ := bind_eq_ok.mp hy
  obtain ⟨-, rfl⟩ := Signed.sub_eq_ok_iff.mp hlow
  obtain ⟨-, rfl⟩ := Signed.sub_eq_ok_iff.mp hhigh
  obtain ⟨dealtLow, hlow, hx⟩ := bind_eq_ok.mp hx
  obtain ⟨dealtHigh, hhigh, hy⟩ := bind_eq_ok.mp hy
  have hbases : max (weak - more) 0 ≤ max (strong - less) 0 := by omega
  have hdealt := dealt_mono (Int.le_max_right _ 0) hbases hlow hhigh
  obtain ⟨takenLow, hlow, hx⟩ := bind_eq_ok.mp hx
  obtain ⟨takenHigh, hhigh, hy⟩ := bind_eq_ok.mp hy
  obtain ⟨hpos, hle⟩ := Combatant.underModifiers_mono hdealt.2 hlow hhigh
  obtain rfl := Except.ok.inj hx
  obtain rfl := Except.ok.inj hy
  exact ⟨Multiplier.scale_nonneg _ hpos, Multiplier.scale_mono _ hle⟩

/-- **The damage of two hits with their combo**, which is the same for both. -/
theorem withCombo_mono {comboLow comboHigh : Option Combo} (hbase : weak ≤ strong)
    (hpenalty : less ≤ more)
    (hx : { hit with base := weak }.withCombo powers combat { ctx with damagePenalty := more }
      defender = .ok (comboLow, x))
    (hy : { hit with base := strong }.withCombo powers combat { ctx with damagePenalty := less }
      defender = .ok (comboHigh, y)) : 0 ≤ x ∧ x ≤ y := by
  unfold withCombo at hx hy
  obtain ⟨plainLow, hlow, hx⟩ := bind_eq_ok.mp hx
  obtain ⟨plainHigh, hhigh, hy⟩ := bind_eq_ok.mp hy
  obtain ⟨hpos, hle⟩ := damage_mono hbase hpenalty hlow hhigh
  dsimp only at hx hy
  cases hcombo : Combo.find? hit.element defender.powers.contains with
  | none =>
      rw [hcombo] at hx hy
      obtain ⟨-, rfl⟩ := Prod.mk.inj (Except.ok.inj hx)
      obtain ⟨-, rfl⟩ := Prod.mk.inj (Except.ok.inj hy)
      exact ⟨hpos, hle⟩
  | some combo =>
      rw [hcombo] at hx hy
      obtain ⟨scaledLow, hlow, hx⟩ := bind_eq_ok.mp hx
      obtain ⟨scaledHigh, hhigh, hy⟩ := bind_eq_ok.mp hy
      obtain ⟨-, rfl⟩ := Prod.mk.inj (Except.ok.inj hx)
      obtain ⟨-, rfl⟩ := Prod.mk.inj (Except.ok.inj hy)
      exact Combo.scale_mono (Combo.bonus_nonneg hcombo) hpos hle hlow hhigh

end Hit

/-! ## Behind block and barrier -/

/-- **Health** is lowered no less by more damage. -/
theorem Combatant.unguarded_mono {combatant : Combatant} {piercing : Bool} (hab : a ≤ b) :
    combatant.unguarded a piercing ≤ combatant.unguarded b piercing := by
  unfold unguarded
  split <;> omega

/-! ## Landing -/

namespace Resolution

variable {rules : Rules} {nested : List Effect → Context → Resolution Unit} {ctx : Context}
  {target : CombatantId} {hit : Hit} {s t : Scene} {defender : Combatant}

/-- A hit up to the moment at which its damage has landed: the combo that it has set off, the
damage, and what became of it. -/
def landHit (rules : Rules) (ctx : Context) (target : CombatantId) (hit : Hit) :
    Resolution (Option (Option Combo × Int × DamageReport)) := do
  let before ← combat
  match (before.combatant? target).filter (·.isAlive) with
  | none => return none
  | some defender =>
    let (combo, amount) ← hit.withCombo rules.content.powers before ctx defender
    combo.forM (consume target defender)
    match ← dealDamage ctx.source target amount hit.element hit.piercing with
    | none => return none
    | some landed => return some (combo, amount, landed)

/-- What follows when a hit has landed, if it has. -/
def followUp (rules : Rules) (nested : List Effect → Context → Resolution Unit) (ctx : Context)
    (target : CombatantId) (hit : Hit) :
    Option (Option Combo × Int × DamageReport) → Resolution (Option DamageReport)
  | none => return none
  | some (combo, amount, landed) =>
    return some (← aftermath rules nested ctx target hit combo amount landed)

/-- **A hit is its landing and what follows.** -/
theorem resolveHit_eq : resolveHit rules nested ctx target hit =
    landHit rules ctx target hit >>= followUp rules nested ctx target hit := by
  unfold resolveHit landHit
  rw [bind_assoc]
  refine bind_congr fun before => ?_
  cases (before.combatant? target).filter (·.isAlive) with
  | none => rfl
  | some defender =>
      simp only [bind_assoc]
      refine bind_congr fun _ => bind_congr fun _ => bind_congr fun found => ?_
      cases found <;> rfl

theorem dealDamage_anywhere {source : CombatantId} {element : Element} {piercing : Bool} :
    Secure Anywhere (dealDamage source target a element piercing) := by
  refine .combatant? fun _ _ => ?_
  split
  · exact .pure _
  · exact .bind (.lift (.takeDamage _ _)) fun _ => .bind (.setCombatant _ _) fun _ =>
      .bind (.report _) fun _ => .get fun _ _ => .bind (.lift (.countDamage _ _ _ _)) fun _ =>
        .bind (.modifyAside _ fun _ => rfl) fun _ => .pure _

/-- A landing fails, if at all, with an overflow. -/
theorem landHit_secure : Secure Anywhere (landHit rules ctx target hit) := by
  refine .combat fun combat _ => ?_
  split
  · exact .pure _
  case h_2 defender _ =>
    have hconsume (combo : Combo) : Secure Anywhere (consume target defender combo) :=
      .bind (.setCombatant _ _) fun _ => .bind (.report _) fun _ => .report _
    refine .bind (.lift (.withCombo hit)) fun _ => .bind (.forSome hconsume) fun _ =>
      .bind dealDamage_anywhere fun found => ?_
    cases found <;> exact .pure _

/-- What is reported of a combo that a hit has set off. -/
def comboEvents (target : CombatantId) : Option Combo → List Event
  | some combo => [.combo target combo.name, .powerRemoved target combo.existing]
  | none => []

/-- A hit has landed with an amount of damage. That is reported, after the combo that the hit has
set off; it leaves the target as it is afterwards; and all that follows of the hit follows from
there. -/
def Lands (rules : Rules) (ctx : Context) (target : CombatantId) (hit : Hit) (s : Scene)
    (amount : Int) (after : Combatant) (t : Scene) : Prop :=
  ∃ combo outcome,
    (landHit rules ctx target hit).run s = .ok (some (combo, amount, outcome), t) ∧
      t.combat.events = (s.combat.events ++ (comboEvents target combo).toArray).push
          (.damage target amount outcome.blocked hit.element) ∧
        t.combat.combatant? target = some after ∧
          ∀ nested, (resolveHit rules nested ctx target hit).run s =
            (do return some (← aftermath rules nested ctx target hit combo amount outcome)).run t

/-- A combo changes nothing but the powers of the target. -/
theorem comboed_of_run {combo : Option Combo} {u : Unit}
    (hc : s.combat.combatant? target = some defender)
    (h : (combo.forM (consume target defender)).run s = .ok (u, t)) :
    t.combat.events = s.combat.events ++ (comboEvents target combo).toArray ∧
      ∃ powers, t.combat.combatant? target = some { defender with powers } := by
  cases combo with
  | none =>
      obtain ⟨-, rfl⟩ := run_pure_iff.mp h
      exact ⟨(Array.append_empty).symm, defender.powers, hc⟩
  | some combo =>
      have hid : ({ defender with powers := defender.powers.remove combo.existing } : Combatant).id =
          defender.id := rfl
      rw [← consumed_of_run h, Scene.tell_eq]
      refine ⟨?_, defender.powers.remove combo.existing, ?_⟩
      · show (s.setCombatant target _).combat.events ++ _ = _
        rw [Scene.events_setCombatant]
        rfl
      · exact (Scene.combatant?_setCombatant hc hid).trans (if_pos rfl)

/-- **What a landing comes to**: the damage is that of the hit with its combo, and the health of the
target is lowered by what gets past its guards. -/
theorem lands_of_run {found : Option (Option Combo × Int × DamageReport)}
    (hc : s.combat.combatant? target = some defender) (halive : defender.isAlive = true)
    (h : (landHit rules ctx target hit).run s = .ok (found, t)) :
    ∃ combo amount after,
      hit.withCombo rules.content.powers s.combat ctx defender = .ok (combo, amount) ∧
        after.health = max (defender.health - defender.unguarded amount hit.piercing) 0 ∧
          Lands rules ctx target hit s amount after t := by
  have hland := h
  obtain ⟨_, _, hcombat, h⟩ := run_bind_iff.mp h
  obtain ⟨rfl, rfl⟩ := run_combat_iff.mp hcombat
  rw [hc, Option.filter_some_pos halive] at h
  obtain ⟨⟨combo, amount⟩, _, hlift, h⟩ := run_bind_iff.mp h
  obtain ⟨hcombo, rfl⟩ := run_lift_iff.mp hlift
  obtain ⟨_, u, hconsume, h⟩ := run_bind_iff.mp h
  obtain ⟨hevents, powers, hthere⟩ := comboed_of_run hc hconsume
  obtain ⟨_, v, hdeal, h⟩ := run_bind_iff.mp h
  obtain ⟨outcome, after, stats, rfl, htake, -, rfl⟩ := reached_of_run hthere hdeal
  obtain ⟨rfl, rfl⟩ := run_pure_iff.mp h
  obtain ⟨fromBlock, fromBarrier, hafter, -⟩ := Combatant.takeDamage_eq htake
  have hid : after.id = defender.id := hafter ▸ rfl
  have hhealth : after.health =
      max (defender.health - defender.unguarded amount hit.piercing) 0 := hafter ▸ rfl
  refine ⟨combo, amount, after, hcombo, hhealth, combo, outcome, hland, ?_, ?_, fun nested => ?_⟩
  · show (u.setCombatant target after).combat.events.push _ = _
    rw [Scene.events_setCombatant, hevents]
  · show (u.setCombatant target after).combat.combatant? target = _
    rw [Scene.combatant?_setCombatant hthere hid, if_pos rfl]
  · rw [resolveHit_eq]
    show (landHit rules ctx target hit).run s >>= _ = _
    rw [hland]
    rfl

/-- A hit on the living in which nothing overflows has landed. -/
theorem exists_lands (hc : s.combat.combatant? target = some defender)
    (halive : defender.isAlive = true)
    (h : ∀ operation, (resolveHit rules nested ctx target hit).run s ≠
      .error (.overflow operation)) :
    ∃ combo amount after t,
      hit.withCombo rules.content.powers s.combat ctx defender = .ok (combo, amount) ∧
        after.health = max (defender.health - defender.unguarded amount hit.piercing) 0 ∧
          Lands rules ctx target hit s amount after t := by
  cases hland : (landHit rules ctx target hit).run s with
  | ok landed =>
      obtain ⟨found, t⟩ := landed
      obtain ⟨combo, amount, after, hcombo, hhealth, hlands⟩ := lands_of_run hc halive hland
      exact ⟨combo, amount, after, t, hcombo, hhealth, hlands⟩
  | error cause =>
      obtain ⟨operation, rfl⟩ := landHit_secure.fails trivial cause hland
      refine absurd ?_ (h operation)
      rw [resolveHit_eq]
      show (landHit rules ctx target hit).run s >>= _ = _
      rw [hland]
      rfl

/-- **Of two hits the stronger one does no less.** The base is not lower and the penalty not higher;
then the damage that is reported is not less, and the target is left with no more health. -/
theorem lands_mono {weak strong more less : Int} (halive : s.combat.isAlive target = true)
    (hbase : weak ≤ strong) (hpenalty : less ≤ more)
    (hweak : ∀ operation, (resolveHit rules nested { ctx with damagePenalty := more } target
      { hit with base := weak }).run s ≠ .error (.overflow operation))
    (hstrong : ∀ operation, (resolveHit rules nested { ctx with damagePenalty := less } target
      { hit with base := strong }).run s ≠ .error (.overflow operation)) :
    ∃ amount₁ amount₂ after₁ after₂ t₁ t₂,
      Lands rules { ctx with damagePenalty := more } target { hit with base := weak } s amount₁
          after₁ t₁ ∧
        Lands rules { ctx with damagePenalty := less } target { hit with base := strong } s amount₂
          after₂ t₂ ∧
        0 ≤ amount₁ ∧ amount₁ ≤ amount₂ ∧ after₂.health ≤ after₁.health := by
  obtain ⟨defender, hc, halive⟩ := (Option.any_eq_true _ _).mp halive
  obtain ⟨_, amount₁, after₁, t₁, hcombo₁, hhealth₁, hlands₁⟩ := exists_lands hc halive hweak
  obtain ⟨_, amount₂, after₂, t₂, hcombo₂, hhealth₂, hlands₂⟩ := exists_lands hc halive hstrong
  obtain ⟨hpos, hle⟩ := Hit.withCombo_mono hbase hpenalty hcombo₁ hcombo₂
  have hpast : defender.unguarded amount₁ hit.piercing ≤ defender.unguarded amount₂ hit.piercing :=
    Combatant.unguarded_mono hle
  refine ⟨amount₁, amount₂, after₁, after₂, t₁, t₂, hlands₁, hlands₂, hpos, hle, ?_⟩
  rw [hhealth₁, hhealth₂]
  dsimp only
  omega

end Resolution

/-! ## Two blows -/

/-- The player is stronger and weakened, and the enemy is vulnerable, oiled and on guard. -/
def oiledScene : Scene :=
  let s := brawlScene [{ id := "strength", amount := 2 }, { id := "weak", amount := 1 }]
    [{ id := "vulnerable", amount := 1 }, { id := "oiled", amount := 1 }]
  { s with combat.enemies := s.combat.enemies.map ({ · with block := 1, barrier := 1 }) }

namespace Resolution

/-- A torch hits for three or for five. -/
theorem lands_mono_torch :
    oiledScene.combat.isAlive ⟨1⟩ = true ∧
    ∃ amount₁ amount₂ after₁ after₂ t₁ t₂,
      Lands brawlRules { damagePenalty := 2 } ⟨1⟩ { base := 3, element := .fire } oiledScene amount₁
          after₁ t₁ ∧
        Lands brawlRules { damagePenalty := 1 } ⟨1⟩ { base := 5, element := .fire } oiledScene
          amount₂ after₂ t₂ ∧
        0 ≤ amount₁ ∧ amount₁ ≤ amount₂ ∧ after₂.health ≤ after₁.health := by
  have halive : oiledScene.combat.isAlive ⟨1⟩ = true := by decide +kernel
  have hresolved (base penalty : Int) (hok : ((resolveHit brawlRules skip
      { damagePenalty := penalty } ⟨1⟩ { base, element := .fire }).run oiledScene).isOk = true)
      (operation : Operation) : (resolveHit brawlRules skip { damagePenalty := penalty } ⟨1⟩
        { base, element := .fire }).run oiledScene ≠ .error (.overflow operation) := by
    intro h
    rw [h] at hok
    exact absurd hok nofun
  exact ⟨halive, @lands_mono brawlRules skip {} ⟨1⟩ { base := 3, element := .fire } oiledScene
    3 5 2 1 halive (by decide) (by decide) (hresolved 3 2 (by decide +kernel))
    (hresolved 5 1 (by decide +kernel))⟩

end Resolution

end CardCombat
