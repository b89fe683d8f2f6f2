import CardCombat.Proofs.Action.Calls
import CardCombat.Proofs.Vitality.Touches

/-!
# What holds of everyone

Since every step touches one combatant at most, what every wear keeps holds of everyone throughout a
combat: after any effects, through turns and plays, and after all calls. The same goes for what
enemies intend to do, and the two go together, since it takes the intentions to say which effects
will be carried out.

## Main definitions

* `Combat.Everyone` -- something holds of every combatant.
* `Lasting` -- what everyone keeps from one scene to another.

## Main results

* `prevails_of_touches`, `governs_of_touches` -- what holds of all touches.
* `Rules.everyone_of_reaches` -- what every wear keeps holds of everyone after all calls.
-/

namespace CardCombat

/-! ## Everyone -/

namespace Combat

variable {P P' : Combatant → Prop} {combat combat' : Combat} {id : CombatantId} {after : Combatant}

/-- Something holds of every combatant. -/
def Everyone (P : Combatant → Prop) (combat : Combat) : Prop :=
  P combat.player ∧ ∀ enemy ∈ combat.enemies, P enemy

theorem Everyone.imp (h : combat.Everyone P) (hP : ∀ combatant, P combatant → P' combatant) :
    combat.Everyone P' :=
  ⟨hP _ h.1, fun enemy hmem => hP enemy (h.2 enemy hmem)⟩

theorem Everyone.combatant? {combatant : Combatant} (h : combat.Everyone P)
    (hc : combat.combatant? id = some combatant) : P combatant := by
  unfold Combat.combatant? at hc
  split at hc
  · exact Option.some.inj hc ▸ h.1
  · exact h.2 combatant (List.mem_of_find?_eq_some hc)

theorem Everyone.of_field (h : combat.Everyone P) (hfield : combat'.field = combat.field) :
    combat'.Everyone P := by
  obtain ⟨-, hfield⟩ := Prod.mk.inj hfield
  obtain ⟨hplayer, henemies⟩ := Prod.mk.inj hfield
  unfold Everyone
  rw [hplayer, henemies]
  exact h

theorem mem_replaceEnemy {enemies : List Combatant} {enemy : Combatant}
    (h : enemy ∈ replaceEnemy id after enemies) : enemy = after ∨ enemy ∈ enemies := by
  induction enemies with
  | nil => exact absurd h List.not_mem_nil
  | cons first enemies ih =>
      unfold replaceEnemy at h
      split at h
      · exact (List.mem_cons.mp h).imp_right (List.mem_cons_of_mem _)
      · rcases List.mem_cons.mp h with rfl | h
        · exact .inr List.mem_cons_self
        · exact (ih h).imp_right (List.mem_cons_of_mem _)

theorem Everyone.setCombatant (h : combat.Everyone P) (ha : P after) :
    (combat.setCombatant id after).Everyone P := by
  unfold Combat.setCombatant
  split
  · exact ⟨ha, h.2⟩
  · refine ⟨h.1, fun enemy hmem => ?_⟩
    rcases mem_replaceEnemy hmem with rfl | hmem
    · exact ha
    · exact h.2 enemy hmem

theorem Everyone.reap (h : combat.Everyone P) : combat.reap.2.Everyone P :=
  ⟨h.1, fun enemy hmem => h.2 enemy (List.mem_of_mem_filter hmem)⟩

end Combat

/-! ## Relations that hold of all touches -/

open Resolution

variable {rules : Rules} {may : Effect → Prop} {R : Scene → Scene → Prop} {s t : Scene}

theorem prevails_of_touches (hflow : Flow R) (htouch : ∀ {s t}, Touches may s t → R s t) :
    Prevails rules may R where
  flow := hflow
  step h := htouch h.touches
  blow h := htouch h.touches
  opens h := htouch h.touches
  closes h := htouch h.touches

/-- **A relation that holds of all touches governs turns and plays**, if it says of every enemy that
it intends only what may be done. -/
theorem governs_of_touches (hflow : Flow R) (htouch : ∀ {s t}, Touches may s t → R s t)
    (hp : rules.content.Permits may)
    (hintends : ∀ {s t : Scene} {id combatant}, s.combat.combatant? id = some combatant →
      (combatant.Intends may → R s t) → R s t) : Governs rules may R := by
  have hprevails : Prevails rules may R := prevails_of_touches hflow htouch
  refine hprevails.governs hp (fun h => htouch (h.touches hp)) (fun h => htouch h.touches)
    (fun _ _ => htouch (.nobody rfl)) ?_
  intro s id combatant intent ctx a t hc hintent hrun
  refine hintends hc fun hmay => ?_
  have htold : R s (s.report (.intent id intent.name)) := htouch (.nobody rfl)
  exact hflow.trans htold ((hprevails.carryOut hp (hmay intent hintent) ctx).rel hrun)

/-! ## What everyone keeps -/

/-- Something holds of a combatant, and it intends only what `may` be carried out. -/
def Fit (may : Effect → Prop) (Q : Combatant → Prop) (combatant : Combatant) : Prop :=
  Q combatant ∧ combatant.Intends may

/-- If something holds of everyone before, it does so after. -/
def Lasting (P : Combatant → Prop) (s t : Scene) : Prop :=
  s.combat.Everyone P → t.combat.Everyone P

variable {Q : Combatant → Prop}

theorem Lasting.flow {P : Combatant → Prop} : Flow (Lasting P) :=
  ⟨fun _ h => h, fun h h' hs => h' (h hs)⟩

theorem Touches.lasting (hQ : ∀ {before after}, Wear may before after → Q before → Q after)
    (h : Touches may s t) : Lasting (Fit may Q) s t := by
  intro hs
  cases h with
  | nobody h => exact hs.of_field h
  | someone hc hworn h =>
      obtain ⟨hbefore, hintends⟩ := hs.combatant? hc
      have hafter : Fit may Q _ := ⟨hQ hworn.wear hbefore, hworn.intends hintends⟩
      exact (hs.setCombatant hafter).of_field h
  | dead h => exact hs.reap.of_field h

/-- **What every wear keeps** is kept in turns and plays. -/
theorem lasting_governs (hp : rules.content.Permits may)
    (hQ : ∀ {before after}, Wear may before after → Q before → Q after) :
    Governs rules may (Lasting (Fit may Q)) :=
  governs_of_touches Lasting.flow (Touches.lasting hQ) hp
    fun hc h hs => h (hs.combatant? hc).2 hs

/-! ## The start of a combat -/

/-- A combatant that was not in a combat yet. -/
theorem Combatant.vital_ofEnemy (id : CombatantId) (name : String) (maxHealth : Int)
    (role : EnemyRole) : (ofEnemy id name maxHealth role).Vital True :=
  ⟨Int.le_trans Int.one_nonneg (Int.le_max_right _ _), Int.le_max_right _ _, Int.le_refl 0,
    Int.le_refl 0, fun _ => Int.le_refl _⟩

theorem Combatant.vital_ofPlayer (name : String) (health maxHealth : Int) :
    (ofPlayer name health maxHealth).Vital True := by
  refine ⟨?_, ?_, Int.le_refl 0, Int.le_refl 0, fun _ => ?_⟩ <;> unfold ofPlayer <;> dsimp only <;>
    omega

/-- An enemy that has just come has its full health and intends nothing. -/
theorem EnemyTemplate.fit_spawn {template : EnemyTemplate} {id : CombatantId}
    {catalog : Catalog PowerDefinition} {enemy : Combatant}
    (h : template.spawn id catalog = .ok enemy) : Fit may (Combatant.Vital True) enemy := by
  refine foldlM_preserves (P := Fit may (Combatant.Vital True))
    (fun {before start after} hgiven hbefore => ?_) h
      ⟨Combatant.vital_ofEnemy _ _ _ _, fun _ hintent => absurd hintent nofun⟩
  obtain ⟨⟨applied, given⟩, happly, hafter⟩ := bind_eq_ok.mp hgiven
  obtain rfl := Except.ok.inj hafter
  have hworn : Worn may before given :=
    .of_sameButPowers (Combatant.applyPower_sameButPowers happly)
  obtain ⟨powers, rfl⟩ := Combatant.applyPower_sameButPowers happly
  obtain ⟨⟨h₁, h₂, h₃, h₄, h₅⟩, hintends⟩ := hbefore
  exact ⟨⟨h₁, h₂, h₃, h₄, h₅⟩, hworn.intends hintends⟩

/-- The combatants gather in their range, and nobody intends anything yet. -/
theorem Rules.everyone_of_gathered {run : Run} {nextCardUid : Nat} {combat : Combat}
    (h : rules.Gathered run nextCardUid combat) :
    combat.Everyone (Fit may (Combatant.Vital True)) := by
  obtain ⟨enemies, nextEnemyId, rfl, hspawn⟩ := h
  refine ⟨⟨Combatant.vital_ofPlayer _ _ _, fun _ hintent => absurd hintent nofun⟩,
    fun enemy hmem => ?_⟩
  obtain ⟨template, id, hspawn⟩ := hspawn enemy hmem
  exact EnemyTemplate.fit_spawn hspawn

/-! ## Calls -/

namespace Rules

variable {run run' : Run} {call : Call}

/-- **What every wear keeps holds of everyone after an accepted call**, if it holds of those who
come fresh into a combat. -/
theorem everyone_of_accepted (hp : rules.content.Permits may)
    (hQ : ∀ {before after}, Wear may before after → Q before → Q after)
    (hnew : ∀ {combatant}, combatant.Vital True → Q combatant)
    (h : rules.perform run call = .ok (none, run'))
    (hrun : (∀ enemies, call ≠ .start enemies) → run.InCombat (Combat.Everyone (Fit may Q))) :
    run'.InCombat (Combat.Everyone (Fit may Q)) := by
  have hfresh {combatant : Combatant} (hfit : Fit may (Combatant.Vital True) combatant) :
      Fit may Q combatant := ⟨hnew hfit.1, hfit.2⟩
  exact (lasting_governs hp hQ).inCombat_of_accepted hp (fun _ h => h) (fun _ h => h)
    (fun _ h => h) (fun _ _ _ h => h) (fun h hs => h hs) (fun _ h => h)
    (fun h _ => (everyone_of_gathered h).imp fun _ => hfresh) hrun h

/-- **What every wear keeps holds of everyone after all calls.** -/
theorem everyone_of_reaches (hp : rules.content.Permits may)
    (hQ : ∀ {before after}, Wear may before after → Q before → Q after)
    (hnew : ∀ {combatant}, combatant.Vital True → Q combatant) (h : rules.Reaches run run')
    (hrun : run.InCombat (Combat.Everyone (Fit may Q))) :
    run'.InCombat (Combat.Everyone (Fit may Q)) :=
  h.inCombat (fun hbefore hcall => everyone_of_accepted hp hQ hnew hcall fun _ => hbefore)
    (fun _ _ hcombat => hcombat) hrun

end Rules

end CardCombat
