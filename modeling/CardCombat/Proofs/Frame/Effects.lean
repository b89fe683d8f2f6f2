import CardCombat.Proofs.Resolution.Prevails
import Mathlib.Data.List.Forall2

/-!
# What effects leave alone

Effects receive the whole scene, and they re-enter plays, triggers and loops. What the turns keep of
a combat is not theirs to change: whose turn it is and which, what was played in it, the greatest
energy, the charge of the ability. Nor do they change who somebody is. Effects call no enemies and
put none in another place; those that are left are the ones that were there, with the moves that
they had declared, which can only have been weakened.

## Main definitions

* `Scene.bookkeeping` -- what belongs to the turns.
* `Combatant.IsStill` -- a combatant is the one that it was.
* `Framed` -- from one scene to another the bookkeeping is the same and everybody is who they were.

## Main results

* `framed_prevails` -- every step of a resolution keeps the frame.
* `Resolution.framed_of_carryOut` -- effects at any depth keep the frame.
-/

namespace CardCombat

/-! ## Bookkeeping -/

/-- What the turns keep of a combat, and the totals that they count. -/
structure Bookkeeping where
  phase : Phase
  turn : Nat
  cardsPlayedThisTurn : Nat
  lastPlayed : Option Card
  locked : Bool
  maxEnergy : Int
  abilityCharge : Nat
  abilityChargeRequired : Nat
  abilityUsedThisTurn : Bool
  cardsPlayed : Nat
  combatsWon : Nat

namespace Scene

/-- What the turns keep of the combat, and the totals that they count. -/
def bookkeeping (scene : Scene) : Bookkeeping where
  phase := scene.combat.phase
  turn := scene.combat.turn
  cardsPlayedThisTurn := scene.combat.cardsPlayedThisTurn
  lastPlayed := scene.combat.lastPlayed
  locked := scene.combat.locked
  maxEnergy := scene.combat.resources.maxEnergy
  abilityCharge := scene.combat.resources.abilityCharge
  abilityChargeRequired := scene.combat.resources.abilityChargeRequired
  abilityUsedThisTurn := scene.combat.resources.abilityUsedThisTurn
  cardsPlayed := scene.stats.cardsPlayed
  combatsWon := scene.stats.combatsWon

variable {scene : Scene}

theorem bookkeeping_setCombatant (id : CombatantId) (combatant : Combatant) :
    (scene.setCombatant id combatant).bookkeeping = scene.bookkeeping := by
  unfold setCombatant putCombatant Combat.setCombatant
  split <;> split <;> rfl

end Scene

/-! ## Who somebody is -/

/-- The same move as before, weakened no less. -/
def Intent.IsStill (after before : Intent) : Prop :=
  before.weakened ≤ after.weakened ∧ after = { before with weakened := after.weakened }

/-- The same kind of enemy as before, with the same last move, and with the same declared move but
for its being weakened. -/
structure EnemyRole.IsStill (after before : EnemyRole) : Prop where
  template : after.template = before.template
  vulnerabilities : after.vulnerabilities = before.vulnerabilities
  resistances : after.resistances = before.resistances
  lastMove : after.lastMove = before.lastMove
  intent : Option.Rel Intent.IsStill after.intent before.intent

/-- The combatant is the one that it was before. -/
structure Combatant.IsStill (after before : Combatant) : Prop where
  id : after.id = before.id
  name : after.name = before.name
  enemy : Option.Rel EnemyRole.IsStill after.enemy before.enemy

section

variable {α : Type} {R : α → α → Prop}

theorem optionRel_refl [Std.Refl R] (found : Option α) : Option.Rel R found found := by
  cases found with
  | none => exact .none
  | some x => exact .some (Std.Refl.refl x)

theorem optionRel_trans [IsTrans α R] {found found' found'' : Option α}
    (h₁ : Option.Rel R found found') (h₂ : Option.Rel R found' found'') :
    Option.Rel R found found'' := by
  cases h₁ with
  | none => exact h₂
  | some h₁ =>
      cases h₂ with
      | some h₂ => exact .some (IsTrans.trans _ _ _ h₁ h₂)

end

instance : Std.Refl Intent.IsStill := ⟨fun _ => ⟨Int.le_refl _, rfl⟩⟩

instance : IsTrans Intent Intent.IsStill :=
  ⟨fun _ _ _ h h' => ⟨Int.le_trans h'.1 h.1, by rw [h.2, h'.2]⟩⟩

instance : Std.Refl EnemyRole.IsStill := ⟨fun _ => ⟨rfl, rfl, rfl, rfl, optionRel_refl _⟩⟩

instance : IsTrans EnemyRole EnemyRole.IsStill where
  trans _ _ _ h h' :=
    { template := h.template.trans h'.template
      vulnerabilities := h.vulnerabilities.trans h'.vulnerabilities
      resistances := h.resistances.trans h'.resistances
      lastMove := h.lastMove.trans h'.lastMove
      intent := optionRel_trans h.intent h'.intent }

instance : Std.Refl Combatant.IsStill := ⟨fun _ => ⟨rfl, rfl, optionRel_refl _⟩⟩

instance : IsTrans Combatant Combatant.IsStill :=
  ⟨fun _ _ _ h h' => ⟨h.id.trans h'.id, h.name.trans h'.name, optionRel_trans h.enemy h'.enemy⟩⟩

namespace Combatant.IsStill

variable {before after : Combatant}

/-- Only numbers and powers have changed. -/
theorem of_same (hid : after.id = before.id) (hname : after.name = before.name)
    (henemy : after.enemy = before.enemy) : IsStill after before :=
  ⟨hid, hname, henemy ▸ optionRel_refl _⟩

theorem of_sameButPowers (h : before.SameButPowers after) : IsStill after before := by
  obtain ⟨powers, rfl⟩ := h
  exact of_same rfl rfl rfl

theorem of_setHealth {value : Int} (h : before.setHealth value = .ok after) :
    IsStill after before := by
  obtain ⟨health, rfl, -⟩ := setHealth_parts h
  exact of_same rfl rfl rfl

theorem of_damage {amount : Int} {piercing : Bool} {outcome : DamageReport}
    (h : before.takeDamage amount piercing = .ok (outcome, after)) : IsStill after before := by
  obtain ⟨block, barrier, health, rfl, -⟩ := takeDamage_parts h
  exact of_same rfl rfl rfl

/-- **No change of a combatant makes it another one**, and the only one that reaches its declared
move weakens it. -/
theorem of_alteration {rules : Rules} {may : Effect → Prop} {numbered : Prop} {id : CombatantId}
    {events : List Event} (h : Alteration rules may numbered id before after events) :
    IsStill after before := by
  cases h with
  | heal _ h =>
      obtain ⟨health, rfl, -⟩ := heal_spec h
      exact of_same rfl rfl rfl
  | maxHealth _ h =>
      obtain ⟨health, maxHealth, rfl, -⟩ := changeMaxHealth_spec h
      exact of_same rfl rfl rfl
  | setHealth _ h => exact of_setHealth h
  | @weaken enemy intent amount weakened he hi hn h =>
      obtain ⟨-, rfl⟩ := Signed.add_eq_ok_iff.mp h
      refine ⟨rfl, rfl, ?_⟩
      rw [he]
      refine .some ⟨rfl, rfl, rfl, rfl, ?_⟩
      rw [hi]
      exact .some ⟨by dsimp only; omega, rfl⟩
  | givePower _ _ h => exact of_sameButPowers (applyPower_sameButPowers h)
  | leaveStatus _ h => exact of_sameButPowers (applyPower_sameButPowers h)
  | takePower _ _ _ h => exact of_sameButPowers (removePower_sameButPowers h)
  | block | barrier | destroyBlock | silence | consume => exact of_same rfl rfl rfl

end Combatant.IsStill

/-- Where an enemy was replaced by what it has become, everybody is who they were. -/
theorem Combat.isStill_replaceEnemy {id : CombatantId} {before after : Combatant}
    {enemies : List Combatant} (hc : enemies.find? (·.id == id) = some before)
    (h : after.IsStill before) :
    List.SublistForall₂ Combatant.IsStill (replaceEnemy id after enemies) enemies := by
  induction enemies with
  | nil => exact .nil
  | cons enemy enemies ih =>
      unfold replaceEnemy
      rw [List.find?_cons] at hc
      split
      case isTrue hid =>
        rw [hid] at hc
        obtain rfl := Option.some.inj hc
        exact .cons h (Std.Refl.refl enemies)
      case isFalse hid =>
        rw [Bool.eq_false_iff.mpr hid] at hc
        exact .cons (Std.Refl.refl enemy) (ih hc)

/-! ## The frame -/

/-- From one scene to another the bookkeeping is the same, and everybody who is there is one of
those who were there, in the same order. -/
structure Framed (s t : Scene) : Prop where
  bookkeeping : t.bookkeeping = s.bookkeeping
  player : t.combat.player.IsStill s.combat.player
  enemies : List.SublistForall₂ Combatant.IsStill t.combat.enemies s.combat.enemies

namespace Framed

variable {rules : Rules} {may : Effect → Prop} {s t : Scene} {id : CombatantId}
  {before after : Combatant}

theorem flow : Resolution.Flow Framed where
  refl _ := ⟨rfl, Std.Refl.refl _, Std.Refl.refl _⟩
  trans h h' := ⟨h'.bookkeeping.trans h.bookkeeping,
    IsTrans.trans _ _ _ h'.player h.player, IsTrans.trans _ _ _ h'.enemies h.enemies⟩

/-- Nothing has changed that the frame is about. -/
theorem of_same (hb : t.bookkeeping = s.bookkeeping) (hp : t.combat.player = s.combat.player)
    (he : t.combat.enemies = s.combat.enemies) : Framed s t :=
  ⟨hb, hp ▸ Std.Refl.refl _, he ▸ Std.Refl.refl _⟩

theorem report (h : Framed s t) (event : Event) : Framed s (t.report event) :=
  flow.trans h (of_same rfl rfl rfl)

theorem tell (h : Framed s t) (events : List Event) : Framed s (t.tell events) := by
  rw [Scene.tell_eq]
  exact flow.trans h (of_same rfl rfl rfl)

theorem of_setCombatant (hc : s.combat.combatant? id = some before) (h : after.IsStill before) :
    Framed s (s.setCombatant id after) := by
  have hset : (s.setCombatant id after).combat = s.combat.setCombatant id after := by
    unfold Scene.setCombatant
    split <;> rfl
  refine ⟨Scene.bookkeeping_setCombatant id after, ?_, ?_⟩ <;> rw [hset]
  · by_cases hp : id = .player
    · subst hp
      exact Option.some.inj hc ▸ h
    · rw [Combat.setCombatant_enemy hp]
      exact Std.Refl.refl _
  · by_cases hp : id = .player
    · rw [hp, Combat.setCombatant_player]
      exact Std.Refl.refl _
    · rw [Combat.setCombatant_enemy hp]
      rw [Combat.combatant?_enemy hp] at hc
      exact Combat.isStill_replaceEnemy hc h

theorem of_damages {source target : CombatantId} {outcome : DamageReport}
    (h : Damages source target outcome s t) : Framed s t := by
  cases h with
  | mk hc h hs =>
      obtain ⟨damageDealt, damageTaken, rfl⟩ := Stats.countDamage_eq hs
      refine flow.trans (of_setCombatant hc (.of_damage h)) (of_same ?_ rfl rfl)
      unfold Scene.setCombatant
      split <;> rfl

theorem of_step (h : Step rules may s t) : Framed s t := by
  cases h with
  | altered hc h => exact (of_setCombatant hc (.of_alteration h)).tell _
  | damaged h => exact of_damages h
  | energy | gold =>
      refine tell ?_ _
      exact of_same rfl rfl rfl
  | changed =>
      refine report (of_same ?_ (Combat.same_modifyCard Combat.player fun _ _ => rfl)
        (Combat.same_modifyCard Combat.enemies fun _ _ => rfl)) _
      exact Combat.same_modifyCard (fun combat => Scene.bookkeeping { s with combat })
        fun _ _ => rfl
  | drew | told | acted | energyNextTurn | shuffled | reshuffled | drawn | milled | moved | brought
  | removed | sent | recalled | issued | created | asked | offered => exact of_same rfl rfl rfl

theorem of_blow (h : Blow rules s t) : Framed s t := by
  cases h with
  | damaged h => exact of_damages h
  | setHealth hc h => exact (of_setCombatant hc (.of_setHealth h)).report _
  | executed hc h => exact (of_setCombatant hc (.of_setHealth h)).report _
  | died | counted | acted => exact of_same rfl rfl rfl
  | buried =>
      refine ⟨rfl, Std.Refl.refl _, ?_⟩
      exact List.sublistForall₂_iff.mpr ⟨_, List.forall₂_same.mpr fun enemy _ => Std.Refl.refl enemy,
        List.filter_sublist⟩

theorem of_opens {card : Card} (h : Opens card s t) : Framed s t := by
  cases h with
  | mk => exact of_same rfl rfl rfl

theorem of_closes {uid : CardUid} (h : Closes rules uid s t) : Framed s t := by
  obtain ⟨inPlay, discardPile, exhaustPile, told, written, rfl⟩ := h.scene_eq
  exact of_same rfl rfl rfl

end Framed

/-- **Every step of a resolution keeps the frame.** -/
theorem framed_prevails {rules : Rules} : Prevails rules Effect.Any Framed :=
  ⟨Framed.flow, Framed.of_step, Framed.of_blow, Framed.of_opens, Framed.of_closes⟩

namespace Resolution

/-- **Effects leave the frame alone**: whatever the content, the scene and the context are, what the
turns keep is the same after any list of effects, and everybody who is left is who they were, with a
declared move that was weakened at most. -/
theorem framed_of_carryOut {rules : Rules} {effects : List Effect} {ctx : Context} {s t : Scene}
    (h : (carryOut rules effects ctx).run s = .ok ((), t)) : Framed s t :=
  (framed_prevails.carryOut rules.content.permits_any (fun _ _ => trivial) ctx).rel h

end Resolution

/-! ## A feint -/

/-- A card that strikes. -/
def feintRules : Rules where
  content :=
    { cards := Catalog.empty.put "jab"
        { id := "jab", name := "Jab", theme := .attack, cost := .fixed 1
          effects := [.strike (.fixed 3) .frontEnemy] }
      powers := .empty }

/-- The player, with that card on the deck, before two enemies that have declared their moves. -/
def feintScene : Scene where
  combat :=
    { player := .ofPlayer "Hero" 10 10
      resources := { energy := 1, maxEnergy := 3 }
      enemies :=
        [{ id := ⟨1⟩, name := "Rat", health := 5, maxHealth := 5
           enemy := some { template := "rat", vulnerabilities := [.fire], resistances := []
                           intent := some ⟨0, "Bite", .attack, [.strike (.fixed 2) .enemy], 0⟩ } },
         { id := ⟨2⟩, name := "Ogre", health := 50, maxHealth := 50
           enemy := some { template := "ogre", vulnerabilities := [], resistances := [.ice]
                           intent := some ⟨1, "Club", .attack, [.strike (.fixed 9) .enemy], 1⟩
                           lastMove := some 0 } }]
      piles := { drawPile := [{ uid := ⟨1⟩, definition := "jab" }] }
      nextCardUid := 2 }
  gold := 0
  stats := {}
  relics := []
  rng := .ofSeed 0

/-- All moves are weakened, the enemy in front dies, and the card on the deck is played. -/
def feint : List Effect :=
  [.weakenIntent (.fixed 2) .allEnemies, .strike (.fixed 5) .frontEnemy, .playTopCard .one]

/-- The scene after the feint. -/
def feintAfter : Scene := Resolution.sceneAfter (Resolution.carryOut feintRules feint {}) feintScene

namespace Resolution

/-- After the feint the enemy that is left is who it was, and its move is weakened. -/
theorem framed_of_feint : Framed feintScene feintAfter ∧
    feintAfter.combat.enemies.map (fun enemy => (enemy.name, enemy.health,
      enemy.intent.map (·.weakened))) = [("Ogre", 47, some 3)] :=
  ⟨framed_of_carryOut (run_eq_of_isSome (by decide +kernel)), by decide +kernel⟩

end Resolution

end CardCombat
