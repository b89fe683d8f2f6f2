import CardCombat.Proofs.Silence.Effects
import CardCombat.Proofs.Vitality.Everyone

/-!
# Where effects tell everything

Effects tell what they change in every combat where nobody can be taken anything from in silence,
and in no other one: whoever can be taken something from can do it to itself. Among combatants whose
numbers are in their range those are the ones with a greatest health of one and more health than
that.

## Main definitions

* `Resolution.Tells` -- effects change nothing in silence.

## Main results

* `Combat.Everyone.snug` -- where nobody can be taken anything from in silence.
* `Resolution.tells_exactly_where_snug` -- where nothing changes in silence.
-/

namespace CardCombat

/-- Nobody can be taken anything from in silence if everyone's numbers are in their range and nobody
has more health than a greatest health of one. -/
theorem Combat.Everyone.snug {combat : Combat} {bounded : Prop} (h : combat.Everyone
    fun combatant => combatant.Vital bounded ∧ combatant.health ≤ Signed.greatest ∧
      (combatant.maxHealth = 1 → combatant.health ≤ 1)) : combat.Snug := by
  intro id combatant hc _
  obtain ⟨hvital, hfits, hone⟩ := h.combatant? hc
  exact hvital.snug hfits hone

namespace Resolution

variable {rules : Rules} {s t : Scene} {ctx : Context} {id : CombatantId}
  {before after : Combatant}

/-- No effects change anything in the scene without an event. -/
def Tells (rules : Rules) (s : Scene) : Prop :=
  ∀ effects ctx t, (carryOut rules effects ctx).run s = .ok ((), t) →
    t.combat.events = s.combat.events → Unmoved s t

/-! ## What one does to oneself -/

/-- A single effect that is not part of any other one. -/
theorem carryOut_one {effect : Effect} (hdepth : ctx.depth = 0)
    (h : (dispatch rules (within rules skip rules.config.maxEffectDepth) ctx effect).run s =
      .ok ((), t)) : (carryOut rules [effect] ctx).run s = .ok ((), t) := by
  unfold carryOut levels
  rw [hdepth]
  exact run_bind_iff.mpr ⟨(), t, h, run_pure_iff.mpr ⟨rfl, rfl⟩⟩

/-- The living can do something to themselves. -/
theorem run_forTargets_self {act : CombatantId → Combatant → Resolution Unit}
    (hc : s.combat.combatant? id = some before) (halive : before.isAlive)
    (h : (act id before).run s = .ok ((), t)) :
    (forTargets .self { source := id } act).run s = .ok ((), t) := by
  have hself : Aim.candidates s.combat { source := id } .self = [id] :=
    if_pos ((Combat.isAlive_of_combatant? hc).trans halive)
  refine run_bind_iff.mpr ⟨[id], s, run_targets_iff.mpr ⟨hself, rfl⟩, ?_⟩
  refine run_bind_iff.mpr ⟨(), t, run_bind_iff.mpr ⟨_, s, run_combatant?_iff.mpr ⟨hc, rfl⟩, h⟩, ?_⟩
  exact run_pure_iff.mpr ⟨rfl, rfl⟩

/-- Where effects tell what they change, whoever one of them sets in silence is set to what it
was. -/
theorem eq_of_tells (ht : Tells rules s) (effect : Effect)
    (hc : s.combat.combatant? id = some before) (hid : after.id = before.id)
    (h : (dispatch rules (within rules skip rules.config.maxEffectDepth) { source := id }
      effect).run s = .ok ((), s.setCombatant id after)) : after = before := by
  obtain ⟨_, _, _, hsame⟩ := ht _ _ _ (carryOut_one rfl h) (s.events_setCombatant id after)
  have hafter : (s.setCombatant id after).combat.combatant? id = some after := by
    rw [Scene.combatant?_setCombatant hc hid, if_pos rfl]
  rw [hsame] at hafter
  exact Option.some.inj (hafter.symm.trans hc)

/-- A greatest health of one cannot be lowered, and whoever has it would lose all other health. -/
theorem health_le_of_tells (ht : Tells rules s) (hc : s.combat.combatant? id = some before)
    (halive : before.isAlive) (hmax : before.maxHealth = 1) : before.health ≤ 1 := by
  have hpos := Combatant.isAlive_iff.mp halive
  have hlowered : before.changeMaxHealth (-1) =
      .ok { before with maxHealth := 1, health := max 0 (min 1 before.health) } := by
    unfold Combatant.changeMaxHealth
    rw [hmax]
    rfl
  have hrun : (changeMaxHealth (.fixed (-1)) .self { source := id }).run s =
      .ok ((), s.setCombatant id
        { before with maxHealth := 1, health := max 0 (min 1 before.health) }) := by
    refine run_bind_iff.mpr ⟨-1, s, run_amount_iff.mpr ⟨rfl, rfl⟩, run_forTargets_self hc halive ?_⟩
    simp only [run_bind_iff, run_lift_iff, run_setCombatant_iff]
    refine ⟨_, _, ⟨hlowered, rfl⟩, (), _, rfl, 0, _, ⟨?_, rfl⟩, run_pure_iff.mpr ⟨rfl, rfl⟩⟩
    rw [hmax]
    rfl
  have hsame : max 0 (min 1 before.health) = before.health :=
    congrArg Combatant.health (eq_of_tells ht (.maxHealth (.fixed (-1)) .self) hc (by rfl) hrun)
  omega

/-- Guards that come to no more than nothing are taken away in silence. -/
theorem bare_of_tells (ht : Tells rules s) (hc : s.combat.combatant? id = some before)
    (halive : before.isAlive) (includeBarrier : Bool) {removed : Int}
    (h : (if includeBarrier then Signed.add before.block before.barrier else pure before.block) =
      .ok removed) (hnone : removed ≤ 0) :
    before.block = 0 ∧ (includeBarrier → before.barrier = 0) := by
  have hrun : (destroyBlock .self includeBarrier { source := id }).run s =
      .ok ((), s.setCombatant id
        { before with block := 0, barrier := if includeBarrier then 0 else before.barrier }) := by
    refine run_forTargets_self hc halive ?_
    cases includeBarrier with
    | true =>
        refine run_bind_iff.mpr ⟨removed, s, run_lift_iff.mpr ⟨h, rfl⟩, ?_⟩
        refine run_bind_iff.mpr ⟨(), _, run_setCombatant_iff.mpr rfl, ?_⟩
        exact run_if_report_iff.mpr (by rw [if_neg (Int.not_lt.mpr hnone)]; rfl)
    | false =>
        refine run_bind_iff.mpr ⟨removed, s, run_pure_iff.mpr ⟨Except.ok.inj h, rfl⟩, ?_⟩
        refine run_bind_iff.mpr ⟨(), _, run_setCombatant_iff.mpr rfl, ?_⟩
        exact run_if_report_iff.mpr (by rw [if_neg (Int.not_lt.mpr hnone)]; rfl)
  have hbare := eq_of_tells ht (.destroyBlock .self includeBarrier) hc (by rfl) hrun
  refine ⟨(congrArg Combatant.block hbare).symm, fun hincluded => ?_⟩
  rw [hincluded] at hbare
  exact (congrArg Combatant.barrier hbare).symm

/-! ## Where nothing changes in silence -/

/-- **Nothing changes in silence where nobody can be taken anything from in silence, and nowhere
else**: there, effects of which no event comes, whatever the content and their context are and
however deep they go, change nothing in the combat, but they may draw random numbers and give out
numbers of cards. In a combat in which everyone has a number of its own and health that fits its
range, there is no weaker condition. -/
theorem tells_exactly_where_snug :
    (s.combat.Snug → Tells rules s) ∧
      (s.combat.Numbered →
        (∀ {id combatant}, s.combat.combatant? id = some combatant →
          combatant.health ≤ Signed.greatest) →
            Tells rules s → s.combat.Snug) := by
  constructor
  · intro hs effects ctx t h hevents
    exact (carryOut_candid effects ctx h).unmoved hs (congrArg Array.size hevents)
  · intro hn hfits ht id before hc halive
    have halive := halive hn
    -- only the living find themselves, and the dead are nobody's aim where numbers are distinct
    refine ⟨hfits hc, fun hmax => ⟨?_, health_le_of_tells ht hc halive hmax⟩, ?_, ?_⟩
    · exact Int.le_of_lt (Combatant.isAlive_iff.mp halive)
    · by_contra hless
      have hblock := (bare_of_tells ht hc halive false rfl (by omega)).1
      omega
    · intro sum hsum hnone
      exact (bare_of_tells ht hc halive true hsum hnone).2 rfl

end Resolution

/-! ## A draught too many -/

/-- The rules without any content. -/
def plainRules : Rules where
  content := {}

/-- The player, in full health and without guards, before an enemy. -/
def frailScene (maxHealth : Int) : Scene where
  combat :=
    { player := .ofPlayer "Hero" maxHealth maxHealth
      resources := { energy := 3, maxEnergy := 3 }
      enemies :=
        [.ofEnemy ⟨1⟩ "Rat" 5 { template := "rat", vulnerabilities := [], resistances := [] }]
      piles := {}
      nextCardUid := 1 }
  gold := 0
  stats := {}
  relics := []
  rng := .ofSeed 0

/-- The scene after somebody in full health and without guards was healed and bared of guards. -/
def soothedScene : Scene :=
  Resolution.sceneAfter
    (Resolution.carryOut plainRules [.heal (.fixed 5) .self false, .destroyBlock .self true] {})
    (frailScene 10)

/-- The scene after a player with a greatest health of one was healed beyond it. -/
def draughtScene : Scene :=
  Resolution.sceneAfter (Resolution.carryOut plainRules [.heal (.fixed 5) .self true] {})
    (frailScene 1)

/-- The scene after that health was to be lowered. -/
def witheredScene : Scene :=
  Resolution.sceneAfter (Resolution.carryOut plainRules [.maxHealth (.fixed (-1)) .self] {})
    draughtScene

namespace Resolution

/-- Nothing tells of healing somebody in full health, and nothing changes. -/
theorem tells_in_full_health :
    Unmoved (frailScene 10) soothedScene ∧ (frailScene 10).combat.Snug := by
  have hfit : (frailScene 10).combat.Everyone fun combatant => combatant.Vital True ∧
      combatant.health ≤ Signed.greatest ∧ (combatant.maxHealth = 1 → combatant.health ≤ 1) := by
    refine ⟨⟨Combatant.vital_ofPlayer _ _ _, by decide, by decide⟩, fun enemy hmem => ?_⟩
    obtain rfl := List.mem_singleton.mp hmem
    exact ⟨Combatant.vital_ofEnemy _ _ _ _, by decide, by decide⟩
  have htells : Tells plainRules (frailScene 10) := tells_exactly_where_snug.1 hfit.snug
  exact ⟨htells _ _ _ (run_eq_of_isSome (by decide +kernel)) (by decide +kernel),
    tells_exactly_where_snug.2 ⟨by decide, by decide⟩ (fun hc => (hfit.combatant? hc).2.1) htells⟩

/-- Health is lost in silence: whoever has a greatest health of one and more health than that loses
the rest when the greatest health is lowered, since that stays what it was. -/
theorem health_withers_in_silence :
    ¬∀ rules s effects ctx t, (carryOut rules effects ctx).run s = .ok ((), t) →
      t.combat.events = s.combat.events → t.combat.player.health = s.combat.player.health := by
  intro hclaim
  have hsame := hclaim plainRules draughtScene [.maxHealth (.fixed (-1)) .self] {} witheredScene
    (run_eq_of_isSome (by decide +kernel)) (by decide +kernel)
  exact absurd hsame (by decide +kernel)

end Resolution

end CardCombat
