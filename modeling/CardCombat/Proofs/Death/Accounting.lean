import CardCombat.Proofs.Death.Hits
import Mathlib

/-!
# The deaths of a resolution

What the account of a resolution comes to, when it began with living enemies only: who is left, what
was reported and counted, and whose last words were heard.

## Main results

* `Resolution.deaths_of_carryOut` -- every death is reported and counted once, and nobody comes
  back.
* `Resolution.heard_eq_lastWords_iff` -- the last words of an enemy are heard unless it is taken
  away before its death has been dealt with.
-/

namespace CardCombat

variable {rules : Rules} {id : CombatantId} {s t : Scene} {deeds : List Deed} {events : List Event}

/-- The numbers of the enemies. -/
def Combat.enemyIds (combat : Combat) : List CombatantId := combat.enemies.map (·.id)

/-- The enemies of one scene that are not there in another one. -/
def Scene.removed (s t : Scene) : List CombatantId :=
  s.combat.enemyIds.filter (· ∉ t.combat.enemyIds)

/-- The effects that a combatant has carried out on the occasion of its death. -/
def heard (id : CombatantId) (deeds : List Deed) : List (List Effect) :=
  deeds.filterMap fun
    | .acted owner .death effects => if owner = id then some effects else none
    | _ => none

/-! ## Reading stories -/

theorem Combat.combatant?_eq_none_iff {combat : Combat} (hn : combat.Numbered)
    (hid : id ≠ .player) :
    combat.combatant? id = none ↔ id ∉ combat.enemyIds := by
  rw [Option.eq_none_iff_forall_ne_some]
  constructor
  · intro h hmem
    obtain ⟨c, hc, rfl⟩ := List.mem_map.mp hmem
    exact h c ((combatant?_eq_some_iff hn hid).mpr ⟨hc, rfl⟩)
  · intro h c hc
    obtain ⟨hmem, rfl⟩ := (combatant?_eq_some_iff hn hid).mp hc
    exact h (List.mem_map.mpr ⟨c, hmem, rfl⟩)

theorem countP_story :
    (story id deeds).countP (·.isDeathOf id) = deeds.countP (·.isDeathOf id) := by
  rw [story, List.countP_filter]
  apply List.countP_congr
  intro deed _
  rw [Bool.and_eq_true]
  exact ⟨fun h => h.1, fun h => ⟨h, Deed.concerns_of_isDeathOf h⟩⟩

theorem heard_story : heard id (story id deeds) = heard id deeds := by
  unfold heard story
  rw [List.filterMap_filter]
  congr 1
  funext deed
  cases deed with
  | acted owner occasion effects => cases occasion <;> simp [Deed.concerns]
  | fell | died | buried | routed | changed | removed | landed | merged => simp

theorem mem_story {deed : Deed} : deed ∈ story id deeds ↔ deed ∈ deeds ∧ deed.concerns id :=
  List.mem_filter

/-- The order of two deeds of a story is their order among all deeds. -/
theorem sublist_story_iff {part : List Deed} (h : ∀ deed ∈ part, deed.concerns id) :
    part.Sublist (story id deeds) ↔ part.Sublist deeds := by
  constructor
  · exact fun hs => hs.trans List.filter_sublist
  · intro hs
    have := hs.filter (·.concerns id)
    rwa [List.filter_eq_self.mpr h] at this

namespace Dying

variable {fallen : Combatant} {dying : List Deed}

/-- An enemy dies once. -/
theorem countP_isDeathOf (h : Dying rules id fallen dying) : dying.countP (·.isDeathOf id) = 1 := by
  cases h with
  | timely h => simp [List.countP_append, List.countP_map, Deed.isDeathOf]
  | late => simp [Deed.isDeathOf]

/-- An enemy falls once. -/
theorem fell_not_mem (h : Dying rules id fallen dying) (other : Combatant) :
    .fell id other ∉ dying := by
  cases h with
  | timely h => simp
  | late => simp

theorem concerns (h : Dying rules id fallen dying) {deed : Deed} (hmem : deed ∈ dying) :
    deed.concerns id := by
  cases h with
  | timely h =>
      simp only [List.mem_append, List.mem_cons, List.mem_map] at hmem
      rcases hmem with (rfl | ⟨effects, -, rfl⟩) | rfl | ⟨effects, -, rfl⟩ <;>
        exact beq_self_eq_true id
  | late =>
      simp only [List.mem_cons, List.not_mem_nil, or_false] at hmem
      rcases hmem with rfl | rfl <;> exact beq_self_eq_true id

private theorem heard_acted (lists : List (List Effect)) :
    heard id (lists.map (.acted id .death)) = lists := by
  unfold heard
  rw [List.filterMap_map]
  simp

theorem heard_timely {earlier later : List (List Effect)} :
    heard id
        (.died id :: earlier.map (.acted id .death) ++ .buried id :: later.map (.acted id .death))
      = earlier ++ later := by
  have happend (a b : List Deed) : heard id (a ++ b) = heard id a ++ heard id b :=
    List.filterMap_append
  rw [happend]
  show heard id (earlier.map (.acted id .death)) ++ heard id (later.map (.acted id .death)) = _
  rw [heard_acted, heard_acted]

/-- The last words are heard if the death has been dealt with before the burial, or if there are
none. -/
theorem heard_iff (h : Dying rules id fallen dying) : heard id dying = lastWords rules fallen ↔
    lastWords rules fallen = [] ∨ [.died id, .buried id].Sublist dying := by
  cases h with
  | timely h =>
      rw [heard_timely]
      refine ⟨fun _ => .inr ?_, fun _ => h⟩
      refine .cons_cons _ (.trans ?_ (List.sublist_append_right _ _))
      exact .cons_cons _ (List.nil_sublist _)
  | late =>
      constructor
      · exact fun h => .inl h.symm
      · rintro (h | h)
        · exact h.symm
        · rcases h with _ | ⟨_, h⟩ | ⟨_, h⟩
          exact absurd h (by simp)

end Dying

/-- Whoever has fallen is gone, and its story is that of its death. -/
theorem Fate.dying {before after : Option Combatant} {tale : List Deed} {fallen : Combatant}
    (h : Fate rules id before tale after) (hfell : .fell id fallen ∈ tale) :
    after = none ∧ ∃ dying, tale = .fell id fallen :: dying ∧ Dying rules id fallen dying := by
  cases h with
  | absent | lives | lies => exact absurd hfell List.not_mem_nil
  | buried => exact absurd hfell (by simp)
  | @dies _ other dying hb hf h =>
      rcases List.mem_cons.mp hfell with heq | hmem
      · obtain ⟨-, rfl⟩ := Deed.fell.inj heq
        exact ⟨rfl, dying, rfl, h⟩
      · exact absurd hmem (h.fell_not_mem fallen)

namespace Account

variable (h : Account rules (· ≠ .player) s t deeds events)

include h

/-- Nobody who has fallen is alive. -/
theorem isAlive_of_fell {fallen : Combatant} (hfell : .fell id fallen ∈ deeds) :
    t.combat.isAlive id = false := by
  by_cases hid : id = .player
  · subst hid
    rw [Combat.isAlive_of_combatant? Combat.combatant?_player]
    exact h.player (.inr ⟨fallen, hfell⟩)
  · have htale : .fell id fallen ∈ story id deeds :=
      mem_story.mpr ⟨hfell, beq_self_eq_true id⟩
    rw [Combat.isAlive, ((h.fate id hid).dying htale).1]
    rfl

/-- Those who are left and those who are gone are all who were there. -/
theorem length_removed (hn : s.combat.Numbered) :
    t.combat.enemies.length + (s.removed t).length = s.combat.enemies.length := by
  have hkept : (s.combat.enemyIds.filter (· ∈ t.combat.enemyIds)).Perm t.combat.enemyIds := by
    apply (List.perm_ext_iff_of_nodup (hn.1.filter _) (h.numbered hn).1).mpr
    intro id
    rw [List.mem_filter, decide_eq_true_iff]
    exact and_iff_right_of_imp fun hmem => h.ids.subset hmem
  have hsplit := List.length_eq_length_filter_add (l := s.combat.enemyIds)
    (· ∈ t.combat.enemyIds)
  have hremoved :
    s.removed t = s.combat.enemyIds.filter fun id => !decide (id ∈ t.combat.enemyIds) := by
    simp only [Scene.removed, decide_not]
  rw [hkept.length_eq, ← hremoved] at hsplit
  have hbefore : s.combat.enemyIds.length = s.combat.enemies.length := List.length_map _
  have hafter : t.combat.enemyIds.length = t.combat.enemies.length := List.length_map _
  omega

variable (hn : s.combat.Numbered) (halive : ∀ enemy ∈ s.combat.enemies, enemy.isAlive = true)

include hn halive

/-- Whoever is left is alive. -/
theorem isAlive_of_mem {enemy : Combatant} (hmem : enemy ∈ t.combat.enemies) :
    enemy.isAlive = true := by
  have hid : enemy.id ≠ .player := fun heq =>
    (h.numbered hn).2 (heq ▸ List.mem_map.mpr ⟨enemy, hmem, rfl⟩)
  have hfound : t.combat.combatant? enemy.id = some enemy :=
    (Combat.combatant?_eq_some_iff (h.numbered hn) hid).mpr ⟨hmem, rfl⟩
  have hbefore (c : Combatant) (hc : s.combat.combatant? enemy.id = some c) : c.isAlive = true :=
    halive c ((Combat.combatant?_eq_some_iff hn hid).mp hc).1
  have hfate := h.fate enemy.id hid
  rw [hfound] at hfate
  revert hfate hbefore
  generalize s.combat.combatant? enemy.id = before, story enemy.id deeds = tale
  intro hbefore hfate
  cases hfate with
  | lives _ ha => exact ha
  | lies hb => exact absurd ((hbefore _ rfl).symm.trans hb) (by decide)

/-- Whoever is gone has died once, and this was reported. -/
theorem count_death_of_removed (hmem : id ∈ s.removed t) : events.count (.death id) = 1 := by
  obtain ⟨hbefore, hgone⟩ := List.mem_filter.mp hmem
  have hid : id ≠ .player := fun heq => hn.2 (heq ▸ hbefore)
  have hafter : t.combat.combatant? id = none :=
    (Combat.combatant?_eq_none_iff (h.numbered hn) hid).mpr (by simpa using hgone)
  obtain ⟨c, hc, rfl⟩ := List.mem_map.mp hbefore
  have hfound : s.combat.combatant? c.id = some c :=
    (Combat.combatant?_eq_some_iff hn hid).mpr ⟨hc, rfl⟩
  have hfate := h.fate c.id hid
  rw [hfound, hafter] at hfate
  rw [h.deaths, ← countP_story]
  revert hfate
  generalize story c.id deeds = tale
  intro hfate
  cases hfate with
  | buried hb => exact absurd ((halive c hc).symm.trans hb) (by decide)
  | dies _ _ hdying =>
      rw [List.countP_cons_of_neg (by simp [Deed.isDeathOf])]
      exact hdying.countP_isDeathOf

end Account

/-! ## A small fight -/

/-- The rules of a game with one power: who holds it leaves five gold to the player at its death. -/
def legacyRules : Rules where
  content :=
    { powers := Catalog.empty.put "legacy"
        { id := "legacy", name := "Legacy", kind := .buff, stacking := .intensity
          triggers := [⟨.death, [.gold (.fixed 5) .gain]⟩] } }

/-- The player before two enemies, the first of which has something to leave. -/
def legacyScene : Scene where
  combat :=
    { player := .ofPlayer "Hero" 10 10
      resources := {}
      enemies :=
        [{ id := ⟨1⟩, name := "Testator", health := 10, maxHealth := 10
           powers := [{ id := "legacy", amount := 1 }] },
         { id := ⟨2⟩, name := "Guard", health := 10, maxHealth := 10 }]
      nextCardUid := 1 }
  gold := 0
  stats := {}
  relics := []
  rng := .ofSeed 0

/-- A hit on the enemy in front, and before its death is dealt with a hit on all of them. -/
def cleave : List Effect :=
  [.damage (.fixed 10) .frontEnemy .physical false
    [.damage (.fixed 10) .allEnemies .physical false []]]

/-- The scene after effects were carried out in the small fight. -/
def legacyAfter (effects : List Effect) : Scene :=
  (((Resolution.carryOut legacyRules effects {}).run legacyScene).toOption.map (·.2)).getD
    legacyScene

theorem legacyScene_numbered : legacyScene.combat.Numbered := by
  refine ⟨?_, ?_⟩ <;> decide

theorem legacyScene_isAlive : ∀ enemy ∈ legacyScene.combat.enemies, enemy.isAlive = true := by
  intro enemy hmem
  simp only [legacyScene, List.mem_cons, List.not_mem_nil, or_false] at hmem
  rcases hmem with rfl | rfl <;> rfl

namespace Resolution

variable {effects : List Effect} {ctx : Context}

/-- What effects do at any depth is accounted for. -/
theorem account_of_carryOut (hn : s.combat.Numbered)
    (hrun : (carryOut rules effects ctx).run s = .ok ((), t)) :
    (∃ deeds events, Account rules (· ≠ .player) s t deeds events) ∧ t.tally = s.tally := by
  refine within_settled (fun effects ctx => ⟨fun {s a t} h => ?_⟩) _ effects ctx hrun hn
  obtain ⟨-, rfl⟩ := run_pure_iff.mp h
  exact Accounted.flow.refl s

/-- **Deaths are accounted for.** When effects have been carried out in a combat whose enemies were
all alive, those who are left stand in their old order and are alive, each of those who are gone has
been reported dead once, as many kills were counted, and whoever has lost the last of its health on
the way has none in the end. -/
theorem deaths_of_carryOut (hn : s.combat.Numbered)
    (halive : ∀ enemy ∈ s.combat.enemies, enemy.isAlive = true)
    (hrun : (carryOut rules effects ctx).run s = .ok ((), t)) :
    ∃ deeds events, t.chronicle.toList = s.chronicle.toList ++ deeds ∧
      t.combat.events.toList = s.combat.events.toList ++ events ∧
      t.combat.enemyIds.Sublist s.combat.enemyIds ∧
      (∀ enemy ∈ t.combat.enemies, enemy.isAlive = true) ∧
      (∀ id ∈ s.removed t, events.count (.death id) = 1) ∧
      t.stats.enemiesKilled = s.stats.enemiesKilled + (s.removed t).length ∧
      ∀ id fallen, .fell id fallen ∈ deeds → t.combat.isAlive id = false := by
  obtain ⟨⟨deeds, events, h⟩, htally⟩ := account_of_carryOut hn hrun
  have hliving : ∀ enemy ∈ t.combat.enemies, enemy.isAlive = true :=
    fun enemy hmem => h.isAlive_of_mem hn halive hmem
  refine ⟨deeds, events, h.chronicle, h.told, h.ids, hliving,
    fun id hmem => h.count_death_of_removed hn halive hmem, ?_, fun id fallen => h.isAlive_of_fell⟩
  have hall {combat : Combat} (hliving : ∀ enemy ∈ combat.enemies, enemy.isAlive = true) :
      combat.livingEnemies = combat.enemies := List.filter_eq_self.mpr hliving
  have hlength := h.length_removed hn
  unfold Scene.tally at htally
  rw [hall hliving, hall halive] at htally
  omega

/-- Two enemies die of one cleave. -/
theorem deaths_of_cleave : ∃ deeds events,
    (legacyAfter cleave).chronicle.toList = legacyScene.chronicle.toList ++ deeds ∧
      (legacyAfter cleave).combat.events.toList = legacyScene.combat.events.toList ++ events ∧
      (legacyAfter cleave).combat.enemyIds.Sublist legacyScene.combat.enemyIds ∧
      (∀ enemy ∈ (legacyAfter cleave).combat.enemies, enemy.isAlive = true) ∧
      (∀ id ∈ legacyScene.removed (legacyAfter cleave), events.count (.death id) = 1) ∧
      (legacyAfter cleave).stats.enemiesKilled =
        legacyScene.stats.enemiesKilled + (legacyScene.removed (legacyAfter cleave)).length ∧
      ∀ id fallen, .fell id fallen ∈ deeds →
        (legacyAfter cleave).combat.isAlive id = false := by
  refine @deaths_of_carryOut legacyRules legacyScene (legacyAfter cleave) cleave {}
    legacyScene_numbered legacyScene_isAlive ?_
  cbv

/-- The limit of depth is never reached when effects are carried out: whatever lies beyond it, it
makes no difference. -/
def Unskipped (rules : Rules) (effects : List Effect) (ctx : Context) (s t : Scene) : Prop :=
  ∀ beyond : List Effect → Context → Resolution Unit, (∀ ctx, beyond [] ctx = pure ()) →
    (within rules beyond (levels rules ctx.depth) effects ctx).run s = .ok ((), t)

/-- **Last words.** When effects have been carried out and none were skipped, the triggers with
which a fallen enemy responds to its death have been carried out once each and in their order
exactly if there are none, or if its death was dealt with before it was taken away. -/
theorem heard_eq_lastWords_iff (hn : s.combat.Numbered)
    (hrun : Unskipped rules effects ctx s t) :
    ∃ deeds, t.chronicle.toList = s.chronicle.toList ++ deeds ∧
      ∀ id fallen, id ≠ .player → .fell id fallen ∈ deeds →
        (heard id deeds = lastWords rules fallen ↔
          lastWords rules fallen = [] ∨ [.died id, .buried id].Sublist deeds) := by
  obtain ⟨⟨deeds, events, h⟩, -⟩ := account_of_carryOut hn (hrun skip fun _ => rfl)
  refine ⟨deeds, h.chronicle, fun id fallen hid hfell => ?_⟩
  have htale : .fell id fallen ∈ story id deeds := mem_story.mpr ⟨hfell, beq_self_eq_true id⟩
  obtain ⟨-, dying, hstory, hdying⟩ := (h.fate id hid).dying htale
  have hparts : ∀ deed ∈ [Deed.died id, .buried id], deed.concerns id := by
    simp [Deed.concerns]
  rw [← heard_story, ← sublist_story_iff hparts, hstory]
  show heard id dying = _ ↔ _ ∨ _
  rw [hdying.heard_iff]
  refine or_congr_right ⟨fun hs => hs.cons _, fun hs => ?_⟩
  rcases hs with _ | ⟨_, hs⟩ | _
  exact hs

theorem unskipped_cleave :
    Unskipped legacyRules cleave {} legacyScene (legacyAfter cleave) := by
  intro beyond hbeyond
  cbv

/-- What is heard when two enemies die of one cleave. -/
theorem heard_of_cleave : ∃ deeds,
    (legacyAfter cleave).chronicle.toList = legacyScene.chronicle.toList ++ deeds ∧
      ∀ id fallen, id ≠ .player → .fell id fallen ∈ deeds →
        (heard id deeds = lastWords legacyRules fallen ↔
          lastWords legacyRules fallen = [] ∨ [.died id, .buried id].Sublist deeds) :=
  heard_eq_lastWords_iff legacyScene_numbered unskipped_cleave

/-- Last words are not always heard: when the second enemy has died of the cleave, the first one is
taken away with it, and its legacy is lost. -/
theorem cleave_loses_lastWords :
    ¬∀ rules effects ctx s t, s.combat.Numbered →
      (∀ enemy ∈ s.combat.enemies, enemy.isAlive = true) → Unskipped rules effects ctx s t →
        ∀ deeds, t.chronicle.toList = s.chronicle.toList ++ deeds →
          ∀ id fallen, id ≠ .player → .fell id fallen ∈ deeds →
            heard id deeds = lastWords rules fallen := by
  intro hclaim
  have hstart : legacyScene.chronicle.toList = [] := rfl
  have hclaim := hclaim legacyRules cleave {} legacyScene (legacyAfter cleave) legacyScene_numbered
    legacyScene_isAlive unskipped_cleave (legacyAfter cleave).chronicle.toList
    (by rw [hstart, List.nil_append]) ⟨1⟩
  have hfell : (legacyAfter cleave).chronicle.toList.any (fun
      | .fell id fallen => id == ⟨1⟩ && !(lastWords legacyRules fallen).isEmpty
      | _ => false) = true := by
    decide +kernel
  have hheard : (heard ⟨1⟩ (legacyAfter cleave).chronicle.toList).isEmpty = true := by
    decide +kernel
  obtain ⟨deed, hmem, hdeed⟩ := List.any_eq_true.mp hfell
  cases deed with
  | fell id fallen =>
      obtain ⟨hid, hwords⟩ := Bool.and_eq_true_iff.mp hdeed
      obtain rfl := eq_of_beq hid
      have hlost := hclaim fallen (by decide) hmem
      rw [List.isEmpty_iff.mp hheard] at hlost
      rw [← hlost] at hwords
      exact absurd hwords (by decide)
  | died | buried | acted | routed | changed | removed | landed | merged =>
      exact absurd hdeed Bool.false_ne_true

end Resolution

end CardCombat
