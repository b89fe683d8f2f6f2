import CardCombat.Proofs.Resolution.Prevails

/-!
# What stays between the player and one enemy

A hit concerns the one combatant that it lands on. What happens in answer to it is written in the
triggers of powers and relics. The triggers of the built-in powers are aimed at their holder, or at
whoever caused them, so in a run without relics an answer concerns nobody who had no part in what is
answered. The other enemies stay as they are. Only a death looks at all of them: it takes away every
enemy that lies dead at that moment.

## Main definitions

* `Combat.Undisturbed` -- nobody is disturbed but the player and one enemy.
* `Confined` -- a relation of scenes that adds up and says the same for a run without relics.
* `Effect.Plain` -- effects on whoever one aim finds.
* `Effect.Personal` -- those that are aimed at their source or at their cause.

## Main results

* `Catalog.personal_builtinPowers` -- the triggers of the built-in powers are personal.
* `Resolution.react_confined`, `Resolution.die_confined` -- answers, and deaths with theirs.
* `Resolution.hit_of_run` -- a hit is confined but for the effects nested in it.
-/

namespace CardCombat

/-! ## Bystanders -/

/-- The player or a certain enemy. -/
def Involves (who id : CombatantId) : Prop := id = .player ∨ id = who

namespace Combat

variable {combat before after later : Combat} {who id : CombatantId} {old new : Combatant}

/-- The enemies that do not have a certain number. -/
def bystanders (combat : Combat) (who : CombatantId) : List Combatant :=
  combat.enemies.filter (·.id != who)

/-- The bystanders are the same in every respect, or those that are left when the dead among them
are taken away. -/
def Undisturbed (who : CombatantId) (before after : Combat) : Prop :=
  after.bystanders who = before.bystanders who ∨
    after.bystanders who = (before.bystanders who).filter (·.isAlive)

theorem Undisturbed.trans (h : Undisturbed who before after) (h' : Undisturbed who after later) :
    Undisturbed who before later := by
  rcases h with h | h <;> rcases h' with h' | h' <;> rw [h] at h'
  · exact .inl h'
  · exact .inr h'
  · exact .inr h'
  · exact .inr (h'.trans (by simp))

/-- Another state of the player or of the one enemy is nothing to the bystanders. -/
theorem bystanders_setCombatant (hid : Involves who id) (hc : combat.combatant? id = some old)
    (hnew : new.id = old.id) : (combat.setCombatant id new).bystanders who =
      combat.bystanders who := by
  by_cases hp : id = .player
  · rw [hp, setCombatant_player]
    rfl
  · obtain rfl := hid.resolve_left hp
    have hnumber : new.id = id := hnew.trans (id_of_combatant? hp hc)
    rw [setCombatant_enemy hp]
    unfold bystanders
    dsimp only
    generalize combat.enemies = enemies
    induction enemies with
    | nil => rfl
    | cons enemy enemies ih =>
        unfold replaceEnemy
        split
        case isTrue h => simp [hnumber, eq_of_beq h]
        case isFalse h => rw [List.filter_cons, List.filter_cons, ih]

theorem undisturbed_reap : Undisturbed who combat combat.reap.2 := by
  refine .inr ?_
  unfold bystanders reap
  rw [List.filter_filter, List.filter_filter]
  exact List.filter_congr fun enemy _ => Bool.and_comm _ _

end Combat

/-! ## Scenes -/

/-- In a run without relics nobody is disturbed but the player and one enemy, and the run is without
relics still. -/
def Confined (who : CombatantId) (s t : Scene) : Prop :=
  s.relics = [] → t.relics = [] ∧ s.combat.Undisturbed who t.combat

namespace Confined

variable {who id : CombatantId} {s t : Scene} {before after : Combatant}

theorem flow : Resolution.Flow (Confined who) where
  refl _ h := ⟨h, .inl rfl⟩
  trans h h' hs := by
    obtain ⟨ht, hst⟩ := h hs
    obtain ⟨hu, htu⟩ := h' ht
    exact ⟨hu, hst.trans htu⟩

/-- Nothing has changed among the enemies. -/
theorem of_same (h : t.combat.enemies = s.combat.enemies) (hr : t.relics = s.relics) :
    Confined who s t := by
  refine fun hs => ⟨hr.trans hs, .inl ?_⟩
  unfold Combat.bystanders
  rw [h]

theorem report (h : Confined who s t) (event : Event) : Confined who s (t.report event) :=
  flow.trans h (.of_same rfl rfl)

theorem tell (h : Confined who s t) (events : List Event) : Confined who s (t.tell events) := by
  rw [Scene.tell_eq]
  exact flow.trans h (.of_same rfl rfl)

/-- The player or the one enemy has changed. -/
theorem of_setCombatant (hid : Involves who id) (hc : s.combat.combatant? id = some before)
    (ha : after.id = before.id) : Confined who s (s.setCombatant id after) := by
  have hbystanders := Combat.bystanders_setCombatant hid hc ha
  unfold Scene.setCombatant
  split <;> exact fun hs => ⟨hs, .inl hbystanders⟩

theorem of_bury : Confined who s s.bury := fun hs => ⟨hs, Combat.undisturbed_reap⟩

theorem of_damages {source : CombatantId} {outcome : DamageReport} (hid : Involves who id)
    (h : Damages source id outcome s t) : Confined who s t := by
  cases h with
  | mk hc h =>
      have hset := of_setCombatant hid hc (Combatant.takeDamage_spec h).1
      exact flow.trans hset (.of_same rfl rfl)

end Confined

/-! ## Plain effects -/

/-- The effects on whoever one aim finds that nest no other effects. Lightning is left out, since
its combo leaps on. -/
inductive Effect.Plain (aim : Aim) : Effect → Prop
  | damage (amount : Value) {element : Element} (h : element ≠ .lightning) (piercing : Bool) :
      Plain aim (.damage amount aim element piercing [])
  | block (amount : Value) : Plain aim (.block amount aim)
  | heal (amount : Value) (overheal : Bool) : Plain aim (.heal amount aim overheal)
  | destroyBlock (includeBarrier : Bool) : Plain aim (.destroyBlock aim includeBarrier)
  | setHealth (amount : Value) : Plain aim (.setHealth amount aim)
  | weakenIntent (amount : Value) : Plain aim (.weakenIntent amount aim)
  | applyPower (power : PowerId) (amount : Value) (duration : Option Int) :
      Plain aim (.applyPower power amount aim duration)
  | removePower (power : PowerId) (amount : Option Value) :
      Plain aim (.removePower power amount aim)

/-- The plain effects that concern whoever carries them out, or whoever caused them. -/
def Effect.Personal (effect : Effect) : Prop := effect.Plain .self ∨ effect.Plain .source

/-- The triggers of powers are personal. -/
def Catalog.Personal (powers : Catalog PowerDefinition) : Prop :=
  ∀ definition ∈ powers.values, ∀ trigger ∈ definition.triggers,
    ∀ effect ∈ trigger.effects, effect.Personal

/-- **The built-in powers** answer to nobody but their holder and whoever caused the answer. -/
theorem Catalog.personal_builtinPowers : Catalog.builtinPowers.Personal := by
  have hvalues : Catalog.builtinPowers.values = PowerDefinition.builtin := by
    unfold values builtinPowers
    rw [List.map_map]
    exact List.map_id _
  unfold Personal
  rw [hvalues]
  have hurt (amount : Value) : (Effect.damage amount .self .physical true []).Personal :=
    .inl (.damage amount (by decide) true)
  have strike (amount : Value) : (Effect.strike amount .source).Personal :=
    .inr (.damage amount (by decide) false)
  have block (amount : Value) : (Effect.block amount .self).Personal := .inl (.block amount)
  unfold PowerDefinition.builtin PowerDefinition.plain
  simp only [List.forall_mem_cons, List.not_mem_nil, false_implies, implies_true, true_and,
    and_true]
  -- poison, burning; thorns, reflect, counter; regeneration; metallicize; ritual; plated
  exact ⟨hurt _, hurt _, strike _, strike _, strike _, .inl (.heal _ false), block _,
    .inl (.applyPower "strength" _ none), block _, .inl (.removePower "plated" _)⟩

/-- No combo but one of lightning leaps on. -/
theorem Combo.chainPercent_eq_none {element : Element} {hasStatus : PowerId → Bool} {combo : Combo}
    (h : Combo.find? element hasStatus = some combo) (he : element ≠ .lightning) :
    combo.chainPercent = none := by
  have hall : ∀ combo ∈ Combo.table, combo.element ≠ .lightning → combo.chainPercent = none := by
    decide
  unfold find? at h
  have hfound := List.find?_some h
  rw [Bool.and_eq_true, beq_iff_eq] at hfound
  exact hall combo (List.mem_of_find?_eq_some h) (hfound.1 ▸ he)

/-- The combo of a hit is found by its element. -/
theorem Hit.find?_of_withCombo {hit : Hit} {powers : Catalog PowerDefinition} {combat : Combat}
    {ctx : Context} {defender : Combatant} {combo : Combo} {amount : Int}
    (h : hit.withCombo powers combat ctx defender = .ok (some combo, amount)) :
    Combo.find? hit.element defender.powers.contains = some combo := by
  obtain ⟨plain, -, h⟩ := bind_eq_ok.mp h
  split at h
  case h_1 found hfound =>
    obtain ⟨scaled, -, h⟩ := bind_eq_ok.mp h
    exact hfound.trans (Prod.mk.inj (Except.ok.inj h)).1
  case h_2 => exact absurd (Prod.mk.inj (Except.ok.inj h)).1 nofun

/-- What is carried out belongs to a trigger of the player or of one enemy, and one of them has
caused it. -/
structure Context.Between (ctx : Context) (who : CombatantId) : Prop where
  triggered : ctx.triggered = true
  source : Involves who ctx.source
  cause : ∀ cause, ctx.currentTarget = some cause → Involves who cause

/-- The context of a trigger lies between its owner and its cause. -/
theorem Context.between_ofTrigger {ctx inner : Context} {who owner cause : CombatantId}
    (ho : Involves who owner) (hc : Involves who cause)
    (h : ctx.ofTrigger owner (some cause) = .ok inner) : inner.Between who := by
  obtain ⟨deeper, -, h⟩ := bind_eq_ok.mp h
  obtain rfl := Except.ok.inj h
  exact ⟨rfl, ho, fun other hother => Option.some.inj hother ▸ hc⟩

/-- Whoever a personal effect of a trigger finds is one of those between whom it is. -/
theorem Context.Between.involves {ctx : Context} {who id : CombatantId} {combat : Combat}
    (h : ctx.Between who) {aim : Aim} (ha : aim = .self ∨ aim = .source)
    (hid : id ∈ aim.candidates combat ctx) : Involves who id := by
  rcases ha with rfl | rfl
  · exact (Aim.mem_living hid).1 ▸ h.source
  · dsimp only [Aim.candidates] at hid
    rw [if_pos h.triggered] at hid
    cases hc : ctx.currentTarget with
    | none => simp [hc] at hid
    | some cause =>
        rw [hc] at hid
        exact (Aim.mem_living hid).1 ▸ h.cause cause hc

namespace Resolution

variable {rules : Rules} {nested : List Effect → Context → Resolution Unit} {ctx : Context}
  {who target owner cause : CombatantId} {s t : Scene}

/-! ## Answers -/

/-- Personal effects between the player and one enemy disturb nobody else. -/
def StaysBetween (nested : List Effect → Context → Resolution Unit) (who : CombatantId) : Prop :=
  ∀ effects ctx, (∀ effect ∈ effects, effect.Personal) → ctx.Between who →
    Ensures (Confined who) (nested effects ctx)

section Answers

variable (hpowers : rules.content.powers.Personal) (hnested : StaysBetween nested who)

include hpowers hnested

/-- **An answer** to what the player or one enemy has caused. -/
theorem react_confined (ho : Involves who owner) (hc : Involves who cause) {occasion : Occasion} :
    Ensures (Confined who) (react rules nested owner occasion (some cause) ctx) := by
  have hacted {effects : List Effect} {inner : Context} (heffects : ∀ e ∈ effects, e.Personal)
      (hinner : inner.Between who) :
      Ensures (Confined who) (act nested occasion effects inner) := by
    refine Ensures.bind Confined.flow ⟨fun h => ?_⟩ fun _ => hnested _ _ heffects hinner
    obtain rfl := run_record_iff.mp h
    exact .of_same rfl rfl
  refine ⟨fun {s u t} h hs => ?_⟩
  obtain ⟨_, _, hget, h⟩ := run_bind_iff.mp h
  obtain ⟨rfl, rfl⟩ := run_get_iff.mp hget
  split at h
  case h_1 =>
    obtain ⟨-, rfl⟩ := run_pure_iff.mp h
    exact Confined.flow.refl s hs
  case h_2 combatant hcombatant =>
    have hnone : (if owner.isPlayer then relicTriggers rules s.relics occasion else []) = [] := by
      rw [hs]
      exact ite_self _
    dsimp only at h
    rw [hnone] at h
    obtain ⟨_, v, hanswers, h⟩ := run_bind_iff.mp h
    obtain ⟨-, rfl⟩ := run_pure_iff.mp h
    refine (Ensures.forM Confined.flow fun trigger hmem => ⟨fun {s u t} h => ?_⟩).rel hanswers hs
    obtain ⟨inner, _, hinner, h⟩ := run_bind_iff.mp h
    obtain ⟨hok, rfl⟩ := run_lift_iff.mp hinner
    have hbetween : inner.Between who := Context.between_ofTrigger ho hc hok
    refine (hacted (fun effect heffect => ?_) ?_).rel h
    · obtain ⟨definition, hdefinition, written, hwritten, heq⟩ :=
        Combatant.exists_of_mem_triggersOn hmem
      exact hpowers definition hdefinition written hwritten effect (heq ▸ heffect)
    · exact ⟨hbetween.triggered, hbetween.source, hbetween.cause⟩

/-- **A death** that the player or one enemy dies of the other. -/
theorem die_confined (hv : Involves who target) (hk : Involves who cause) :
    Ensures (Confined who) (die rules nested ctx target cause) := by
  refine ⟨fun {s u t} h => ?_⟩
  obtain ⟨counted, heard, hcounts, hheard, h⟩ := death_of_run h
  have hcounted : Confined who s counted := by
    rcases hcounts with ⟨-, rfl⟩ | ⟨-, enemiesKilled, -, rfl⟩ <;> exact .of_same rfl rfl
  have hanswered : Confined who counted heard := react_confined hpowers hnested hv hk hheard
  have hkilled : Confined who heard.bury t :=
    Ensures.onlyIf Confined.flow (react_confined hpowers hnested hk hv) h
  exact Confined.flow.trans hcounted (Confined.flow.trans hanswered
    (Confined.flow.trans .of_bury hkilled))

/-- What comes of damage. -/
theorem afterDamage_confined (hsource : Involves who ctx.source) (hid : Involves who target)
    (outcome : DamageReport) (attack : Bool) :
    Ensures (Confined who) (afterDamage rules nested ctx target outcome attack) := by
  have hanswer {owner cause : CombatantId} {occasion : Occasion} (ho : Involves who owner)
      (hc : Involves who cause) :
      Ensures (Confined who) (react rules nested owner occasion (some cause) ctx) :=
    react_confined hpowers hnested ho hc
  refine Ensures.bind Confined.flow (Ensures.onlyIf Confined.flow ?attack) fun _ =>
    Ensures.bind Confined.flow (Ensures.onlyIf Confined.flow (hanswer hid hsource)) fun _ =>
      Ensures.onlyIf Confined.flow (die_confined hpowers hnested hid hsource)
  case attack =>
    exact Ensures.bind Confined.flow (hanswer hsource hid) fun _ => hanswer hid hsource

end Answers

/-! ## Hits -/

theorem leaveStatus_confined (hid : Involves who target) (status : PowerId) (stack : Int) :
    Ensures (Confined who) (leaveStatus rules target status stack) := by
  refine ⟨fun {s u t} h => ?_⟩
  rcases left_of_run h with rfl | ⟨before, after, applied, hc, -, happly, rfl⟩
  · exact Confined.flow.refl s
  · have hsame := (Combatant.applyPower_sameButPowers happly).id
    exact (Confined.of_setCombatant hid hc hsame).tell _

/-- A combo uses up a status of a combatant, which stays there. -/
theorem consume_confined (hid : Involves who target) {before : Combatant} {combo : Combo} {u : Unit}
    (hc : s.combat.combatant? target = some before)
    (h : (consume target before combo).run s = .ok (u, t)) :
    Confined who s t ∧ t.combat.combatant? target ≠ none := by
  have hset := consumed_of_run h
  have ha : ({ before with powers := before.powers.remove combo.existing } : Combatant).id =
    before.id := rfl
  generalize ({ before with powers := before.powers.remove combo.existing } : Combatant) = after
    at hset ha
  subst hset
  refine ⟨(Confined.of_setCombatant hid hc ha).tell _, ?_⟩
  rw [Scene.tell_eq]
  show (s.setCombatant target after).combat.combatant? target ≠ none
  rw [Scene.combatant?_setCombatant hc ha, if_pos rfl]
  nofun

/-- A combo that does not leap on. -/
theorem settleCombo_confined (hid : Involves who target) {combo : Option Combo} {dealt : Int}
    (hleap : ∀ c, combo = some c → c.chainPercent = none) :
    Ensures (Confined who) (settleCombo rules nested ctx target combo dealt) := by
  cases combo with
  | none => exact Ensures.pure Confined.flow false
  | some combo =>
      refine Ensures.bind Confined.flow
        (Ensures.forSome Confined.flow fun _ => leaveStatus_confined hid _ _) fun _ =>
          Ensures.bind Confined.flow ?leap fun _ => ?execute
      case leap =>
        rw [hleap combo rfl]
        exact Ensures.pure Confined.flow ()
      case execute =>
        split
        · refine ⟨fun {s executed t} h => ?_⟩
          rcases executed_of_run h with ⟨-, rfl⟩ | ⟨-, before, after, hc, -, hset, rfl⟩
          · exact Confined.flow.refl s
          · exact (Confined.of_setCombatant hid hc (Combatant.setHealth_spec hset).1).report _
        · exact Ensures.pure Confined.flow false

/-- What follows when a hit has landed is confined but for the effects nested in the hit. -/
theorem aftermath_of_run (hpowers : rules.content.powers.Personal)
    (hnested : StaysBetween nested who) (hsource : Involves who ctx.source)
    (hid : Involves who target) {hit : Hit} {combo : Option Combo} {amount : Int}
    {landed outcome : DamageReport} (hleap : ∀ c, combo = some c → c.chainPercent = none)
    (h : (aftermath rules nested ctx target hit combo amount landed).run s = .ok (outcome, t)) :
    ∃ u v, Confined who s u ∧
      (onlyIf (!hit.onHit.isEmpty) do nested hit.onHit (← ctx.atTarget target)).run u =
        .ok ((), v) ∧ Confined who v t := by
  obtain ⟨executed, u, hsettled, h⟩ := run_bind_iff.mp h
  have hsu : Confined who s u := settleCombo_confined hid hleap hsettled
  obtain ⟨_, v, honHit, h⟩ := run_bind_iff.mp h
  obtain ⟨_, w, hstatus, h⟩ := run_bind_iff.mp h
  have hvw : Confined who v w := Ensures.onlyIf Confined.flow
    (Ensures.forSome Confined.flow fun _ => leaveStatus_confined hid _ _) hstatus
  obtain ⟨_, x, hanswered, h⟩ := run_bind_iff.mp h
  have hwx : Confined who w x :=
    afterDamage_confined hpowers hnested hsource hid _ true hanswered
  obtain ⟨-, rfl⟩ := run_pure_iff.mp h
  exact ⟨u, v, hsu, honHit, Confined.flow.trans hvw hwx⟩

/-- **A hit** is confined but for the effects nested in it, which are carried out when it has landed
and before it is answered. Only the living are hit. -/
theorem hit_of_run (hpowers : rules.content.powers.Personal) (hnested : StaysBetween nested who)
    (hsource : Involves who ctx.source) (hid : Involves who target) {hit : Hit}
    (he : hit.element ≠ .lightning) {outcome : Option DamageReport}
    (h : (resolveHit rules nested ctx target hit).run s = .ok (outcome, t)) :
    s.combat.isAlive target = false ∧ s = t ∨
      s.combat.isAlive target = true ∧ ∃ u v, Confined who s u ∧
        (onlyIf (!hit.onHit.isEmpty) do nested hit.onHit (← ctx.atTarget target)).run u =
          .ok ((), v) ∧ Confined who v t := by
  obtain ⟨_, _, hcombat, h⟩ := run_bind_iff.mp h
  obtain ⟨rfl, rfl⟩ := run_combat_iff.mp hcombat
  split at h
  case h_1 hnone =>
    obtain ⟨-, rfl⟩ := run_pure_iff.mp h
    refine .inl ⟨Bool.eq_false_iff.mpr fun halive => ?_, rfl⟩
    obtain ⟨c, hc, halive⟩ := (Option.any_eq_true _ _).mp halive
    exact absurd (Option.filter_eq_none_iff.mp hnone c hc halive) nofun
  case h_2 defender hdefender =>
    obtain ⟨hc, halive⟩ := Option.filter_eq_some_iff.mp hdefender
    refine .inr ⟨(Combat.isAlive_of_combatant? hc).trans halive, ?_⟩
    obtain ⟨⟨combo, amount⟩, _, hcombo, h⟩ := run_bind_iff.mp h
    obtain ⟨hfind, rfl⟩ := run_lift_iff.mp hcombo
    have hleap (c : Combo) (hsome : combo = some c) : c.chainPercent = none :=
      Combo.chainPercent_eq_none (Hit.find?_of_withCombo (hsome ▸ hfind)) he
    obtain ⟨_, v, hconsume, h⟩ := run_bind_iff.mp h
    obtain ⟨hsv, hthere⟩ : Confined who s v ∧ v.combat.combatant? target ≠ none := by
      cases combo with
      | none =>
          obtain ⟨-, rfl⟩ := run_pure_iff.mp hconsume
          exact ⟨Confined.flow.refl s, by rw [hc]; nofun⟩
      | some combo => exact consume_confined hid hc hconsume
    obtain ⟨found, w, hdeal, h⟩ := run_bind_iff.mp h
    rcases dealt_of_run hdeal with ⟨-, hnone, -⟩ | ⟨landed, rfl, hdamages⟩
    · exact absurd hnone hthere
    · have hsw : Confined who s w := Confined.flow.trans hsv (.of_damages hid hdamages)
      obtain ⟨outcome, _, hafter, h⟩ := run_bind_iff.mp h
      obtain ⟨-, rfl⟩ := run_pure_iff.mp h
      obtain ⟨x, y, hwx, honHit, hyt⟩ :=
        aftermath_of_run hpowers hnested hsource hid hleap hafter
      exact ⟨x, y, Confined.flow.trans hsw hwx, honHit, hyt⟩

end Resolution

end CardCombat
