import CardCombat.Proofs.Isolation.Confined
import CardCombat.Proofs.Resources.Energy
import CardCombat.Proofs.Vitality.Everyone

/-!
# Where energy stays above zero

If no effect of the content overdraws, then neither does a move that an enemy has declared, and a
combat in which there is energy is never without from its start on. If one does, the rest of the
rules do not stop it.

## Main definitions

* `Combat.Thrifty` -- there is energy left, and no enemy is about to take more.

## Main results

* `Rules.thrifty_of_accepted` -- what accepted calls leave.
* `Rules.energy_nonneg_of_reaches` -- energy stays above zero where no effect overdraws it.
* `Rules.leech_overdraws` -- a card that takes energy below zero.
-/

namespace CardCombat

open Resolution

/-! ## Turns and plays -/

/-- There is energy left, and enemies intend only what does not overdraw. -/
structure Combat.Thrifty (combat : Combat) : Prop where
  everyone : combat.Everyone (Fit (¬Effect.Has Effect.Overdraws ·) fun _ => True)
  solvent : combat.resources.Solvent

/-- From one scene to another a thrifty combat stays thrifty. -/
def StaysThrifty (s t : Scene) : Prop := s.combat.Thrifty → t.combat.Thrifty

namespace StaysThrifty

variable {rules : Rules} {s t : Scene}

theorem of_touches (h : Touches (¬Effect.Has Effect.Overdraws ·) s t)
    (hsolvent : StaysSolvent s t) : StaysThrifty s t :=
  fun hs => ⟨h.lasting (fun _ h => h) hs.everyone, hsolvent hs.solvent⟩

theorem of_combatants (hplayer : t.combat.player = s.combat.player)
    (henemies : t.combat.enemies = s.combat.enemies) (hsolvent : StaysSolvent s t) :
    StaysThrifty s t := by
  refine fun hs => ⟨?_, hsolvent hs.solvent⟩
  unfold Combat.Everyone
  rw [hplayer, henemies]
  exact hs.everyone

end StaysThrifty

section

variable {rules : Rules} (hno : ¬rules.content.Has Effect.Overdraws)

include hno

/-- **Turns leave a thrifty combat thrifty** if no effect of the content overdraws. -/
theorem staysThrifty_presides : Presides rules (¬Effect.Has Effect.Overdraws ·) StaysThrifty := by
  have hp := Content.permits_of_not_has hno
  have hself (effect : Effect) (h : ¬effect.Has Effect.Overdraws) : ¬effect.Overdraws :=
    fun hover => h (.self hover)
  have hprevails : Prevails rules (¬Effect.Has Effect.Overdraws ·) StaysThrifty :=
    { flow := ⟨fun _ h => h, fun h h' hs => h' (h hs)⟩
      step := fun h => .of_touches h.touches (.of_step hself h)
      blow := fun h => .of_touches h.touches (.of_blow h)
      opens := fun h => .of_touches h.touches (.of_opens h)
      closes := fun h => .of_touches h.touches (.of_closes h) }
  refine hprevails.presides hp (fun h => .of_touches (h.touches hp) (.of_upkeep h)) ?_
  intro s id combatant intent ctx a t hc hintent hrun hs
  have hmay := (hs.everyone.combatant? hc).2 intent hintent
  exact (hprevails.carryOut hp hmay ctx).rel hrun ⟨hs.everyone, hs.solvent⟩

/-- A play that is possible leaves a thrifty combat thrifty. -/
theorem staysThrifty_play {s t : Scene} {uid : CardUid} {play : Play}
    {target : Option CombatantId} (hplay : rules.checkPlay s.combat uid = .ok play)
    (h : (Resolution.play rules play target).run s = .ok ((), t)) : StaysThrifty s t := by
  have hpresides := staysThrifty_presides hno
  have hp := Content.permits_of_not_has hno
  obtain ⟨-, hfind, hcost⟩ := Undertakes.checkPlay_spec hplay
  have hmay (upgraded : Bool) : ∀ effect ∈ play.definition.effectsWhen upgraded,
      ¬effect.Has Effect.Overdraws := hp.holds (.card (Catalog.mem_values_of_find? hfind) upgraded)
  rcases run_play h with ⟨-, rfl⟩ | ⟨card, piles, v, w, x, -, henters, hin, hend, hafter⟩
  · exact hpresides.flow.refl s
  · have hcloses := run_endPlay hend
    have hentered : StaysThrifty s v := .of_touches henters.touches (.of_enters hcost henters)
    have hbetween : StaysThrifty v w := (hpresides.whileInPlay hmay card target).rel hin
    have hclosed : StaysThrifty w x := .of_touches hcloses.touches (.of_closes hcloses)
    obtain ⟨_, _, hremember, hcharge⟩ := run_bind_iff.mp hafter
    obtain rfl := run_modifyCombat_iff.mp hremember
    have hdone : StaysThrifty (x.remember card) t := hpresides.charge.rel hcharge
    have hremembered : StaysThrifty x (x.remember card) := .of_combatants rfl rfl (.of_same rfl)
    exact fun hs => hdone (hremembered (hclosed (hbetween (hentered hs))))

/-! ## Calls -/

variable {run run' : Run} {call : Call}

/-- What a call sets going leaves a thrifty combat thrifty. -/
theorem staysThrifty_of_undertakes {s t : Scene} {m : Resolution Unit}
    (hm : Undertakes rules run call s.combat m) (h : m.run s = .ok ((), t)) : StaysThrifty s t := by
  have hpresides := staysThrifty_presides hno
  have hplayer {s : Scene} {energy : Int} (h : s.Refills energy) :
      StaysThrifty s (s.playerBegins energy) := .of_combatants rfl rfl (.of_refills h)
  generalize hcombat : s.combat = combat at hm
  cases hm with
  | start => exact (hpresides.openCombat hplayer).rel h
  | play hc hplay => exact staysThrifty_play hno (hcombat ▸ hplay) h
  | ability hc hability =>
      obtain ⟨hero, hfind, hability⟩ := Option.bind_eq_some_iff.mp hability
      refine (hpresides.useAbility ?_).rel h
      exact (Content.permits_of_not_has hno).holds
        (.ability (Catalog.mem_values_of_find? hfind) hability)
  | select =>
      exact (hpresides.settleSelection (fun _ => .of_combatants rfl rfl (.of_same rfl))
        (fun _ _ _ _ _ => .of_combatants rfl rfl (.of_same rfl)) _).rel h
  | endTurn =>
      exact (hpresides.passTurn (fun _ => .of_combatants rfl rfl (.of_same rfl)) hplayer).rel h

variable (hheroes : ∀ hero ∈ rules.content.heroes.values, 0 ≤ hero.maxEnergy)

include hheroes

omit hno in
/-- Those who gather have energy for their turns, if every hero has. -/
theorem Rules.thrifty_of_gathered {nextCardUid : Nat} {combat : Combat}
    (h : rules.Gathered run nextCardUid combat) (drawPile : List Card) :
    Combat.Thrifty { combat with piles := { drawPile } } := by
  have hsolvent : (rules.startingResources run).Solvent := by
    unfold startingResources
    split
    case h_1 hero hfind =>
      have hhero := hheroes hero (Catalog.mem_values_of_find? hfind)
      exact ⟨Int.le_refl 0, hhero, (Int.add_zero _).symm ▸ hhero⟩
    case h_2 => exact ⟨by decide, by decide, by decide⟩
  refine ⟨(everyone_of_gathered h).imp fun _ hfit => ⟨trivial, hfit.2⟩, ?_⟩
  obtain ⟨enemies, nextEnemyId, rfl, -⟩ := h
  exact hsolvent

/-- **An accepted call leaves a thrifty combat thrifty**, and the start of a combat makes one. -/
theorem Rules.thrifty_of_accepted
    (hrun : (∀ enemies, call ≠ .start enemies) → run.InCombat Combat.Thrifty)
    (h : rules.perform run call = .ok (none, run')) : run'.InCombat Combat.Thrifty := by
  obtain ⟨s, t, m, hm, -, hresolve, -, -, hcombat⟩ := undertakes_of_accepted h
  have hbefore : s.combat.Thrifty := hm.holds (thrifty_of_gathered hheroes) hrun
  obtain ⟨heveryone, hsolvent⟩ := staysThrifty_of_undertakes hno hm hresolve hbefore
  intro combat hc
  obtain rfl := Option.some.inj (hcombat.symm.trans hc)
  rw [Combat.endIfDecided_eq]
  exact ⟨heveryone, hsolvent⟩

/-- **Energy stays above zero** from the start of a combat on, through calls of every kind, if no
effect of the content overdraws it and no hero has less than none to begin with. -/
theorem Rules.energy_nonneg_of_reaches {started : Run} {enemies : List String}
    (hstart : rules.perform run (.start enemies) = .ok (none, started))
    (h : rules.Reaches started run') : run'.InCombat fun combat => 0 ≤ combat.resources.energy := by
  have hthrifty : run'.InCombat Combat.Thrifty :=
    inCombat_of_reaches (thrifty_of_accepted hno hheroes)
      (fun _ _ h => ⟨h.everyone, h.solvent⟩) hstart h
  exact fun combat hc => (hthrifty combat hc).solvent.energy

end

/-! ## A well -/

/-- Plain effects nest no others. -/
theorem Effect.Plain.not_has {aim : Aim} {effect : Effect} {P : Effect → Prop}
    (h : effect.Plain aim) (hP : ¬P effect) : ¬effect.Has P := by
  intro hhas
  cases hhas with
  | self hself => exact hP hself
  | inside hinside =>
      cases h with
      | damage =>
          cases hinside with
          | onHit hmem => exact absurd hmem List.not_mem_nil
      | block | heal | destroyBlock | setHealth | weakenIntent | applyPower | removePower =>
          exact nomatch hinside

/-- A card with some effects. -/
def wellCard (effects : List Effect) : CardDefinition where
  id := "well"
  name := "Well"
  theme := .skill
  cost := .fixed 1
  effects := effects

/-- A hero who has little energy. -/
def wellHero : HeroTemplate where
  id := "monk"
  name := "Monk"
  maxHealth := 10
  maxEnergy := 2
  startingDeck := []

/-- An enemy that does nothing. -/
def wellEnemy : EnemyTemplate where
  id := "dummy"
  name := "Dummy"
  maxHealth := 8
  moves := []

/-- What there is of them. -/
def wellPack (effects : List Effect) : Pack where
  cards := [wellCard effects]
  enemies := [wellEnemy]
  heroes := [wellHero]

/-- The rules with that card. -/
def wellRules (effects : List Effect) : Rules where
  content :=
    { cards := Catalog.empty.put "well" (wellCard effects)
      enemies := Catalog.empty.put "dummy" wellEnemy
      heroes := Catalog.empty.put "monk" wellHero }

/-- A run of that hero with that card. -/
def wellRun : Run where
  hero := "monk"
  health := 10
  maxHealth := 10
  deck := [{ uid := ⟨1⟩, definition := "well" }]
  rng := .ofSeed 0

/-- The effects of a card that gives energy in this turn and for the next one. -/
def springEffects : List Effect := [.energy (.fixed 2) .gain, .energyNextTurn (.fixed 1)]

/-- The effects of a card that gives less energy than none. -/
def leechEffects : List Effect := [.energy (.fixed (-5)) .gain]

/-- The run after a combat has begun. -/
def wellStarted (effects : List Effect) : Run :=
  (wellRules effects).after wellRun (.start ["dummy"])

/-- The run after the card was played. -/
def wellPlayed (effects : List Effect) : Run :=
  (wellRules effects).after (wellStarted effects) (.play ⟨1⟩ none)

/-- The run after the turn in which the card was played. -/
def wellPassed (effects : List Effect) : Run :=
  (wellRules effects).after (wellPlayed effects) .endTurn

theorem well_heroes (effects : List Effect) :
    ∀ hero ∈ (wellRules effects).content.heroes.values, 0 ≤ hero.maxEnergy := by
  intro hero hmem
  obtain rfl := List.mem_singleton.mp hmem
  decide

/-- The built-in powers aside, the rules hold only the effects of the card. -/
theorem well_has {effects : List Effect} {P : Effect → Prop}
    (hplain : ∀ {aim effect}, Effect.Plain aim effect → ¬P effect)
    (heffects : ∀ effect ∈ effects, ¬effect.Has P) : ¬(wellRules effects).content.Has P := by
  rintro ⟨held, hholds, effect, hmem, hhas⟩
  cases hholds with
  | @card definition h upgraded =>
      obtain rfl := List.mem_singleton.mp h
      cases upgraded <;> exact heffects effect hmem hhas
  | power h ht =>
      rcases Catalog.personal_builtinPowers _ h _ ht effect hmem with hself | hsource
      · exact hself.not_has (hplain hself) hhas
      · exact hsource.not_has (hplain hsource) hhas
  | relic h => exact absurd h List.not_mem_nil
  | move h hm =>
      obtain rfl := List.mem_singleton.mp h
      exact absurd hm List.not_mem_nil
  | ability h ha =>
      obtain rfl := List.mem_singleton.mp h
      exact absurd ha nofun

theorem spring_solvent : ¬(wellRules springEffects).content.Has Effect.Overdraws := by
  have hvalue {amount : Int} (h : 0 ≤ amount) : (Value.fixed amount).Nonneg := by
    intro combat ctx resolved hresolved
    obtain rfl := Except.ok.inj hresolved
    exact h
  refine well_has (fun hplain hover => by cases hover <;> exact nomatch hplain) ?_
  intro effect hmem hhas
  rcases List.mem_pair.mp hmem with rfl | rfl
  · cases hhas with
    | self hover => exact Effect.not_overdraws_gain (hvalue (by decide)) hover
    | inside hinside => exact nomatch hinside
  · cases hhas with
    | self hover => exact Effect.not_overdraws_energyNextTurn (hvalue (by decide)) hover
    | inside hinside => exact nomatch hinside

theorem leech_never_sets :
    ¬(wellRules leechEffects).content.Has fun effect => ∃ value, effect = .energy value .set := by
  refine well_has ?_ ?_
  · rintro aim effect hplain ⟨value, rfl⟩
    exact nomatch hplain
  · intro effect hmem hhas
    obtain rfl := List.mem_singleton.mp hmem
    cases hhas with
    | self h => exact absurd h nofun
    | inside hinside => exact nomatch hinside

namespace Rules

/-- The spring leaves energy in the turn in which it is played, and there is some in the next. -/
theorem energy_nonneg_of_spring :
    (wellPlayed springEffects).InCombat (fun combat => 0 ≤ combat.resources.energy) ∧
      (wellPassed springEffects).InCombat (fun combat => 0 ≤ combat.resources.energy) ∧
        (wellPlayed springEffects).combat.map (·.resources.energy) = some 3 ∧
          (wellPassed springEffects).combat.map (·.resources.energy) = some 3 := by
  have hstart : (wellRules springEffects).perform wellRun (.start ["dummy"]) =
      .ok (none, wellStarted springEffects) := perform_eq_of_answer (by decide +kernel)
  have hplay : (wellRules springEffects).perform (wellStarted springEffects) (.play ⟨1⟩ none) =
      .ok (none, wellPlayed springEffects) := perform_eq_of_answer (by decide +kernel)
  have hpass : (wellRules springEffects).perform (wellPlayed springEffects) .endTurn =
      .ok (none, wellPassed springEffects) := perform_eq_of_answer (by decide +kernel)
  have hplayed := Reaches.call .refl hplay
  exact ⟨energy_nonneg_of_reaches spring_solvent (well_heroes _) hstart hplayed,
    energy_nonneg_of_reaches spring_solvent (well_heroes _) hstart (.call hplayed hpass),
    by decide +kernel, by decide +kernel⟩

/-- A card can take energy below zero in content that never sets it: a gain of less than nothing is
not stopped at zero. -/
theorem leech_overdraws :
    ¬∀ pack config content run enemies started run', Content.ofPack pack = .ok content →
      (∀ hero ∈ content.heroes.values, 0 ≤ hero.maxEnergy) →
        (¬content.Has fun effect => ∃ value, effect = .energy value .set) →
          Rules.perform { content, config } run (.start enemies) = .ok (none, started) →
            Rules.Reaches { content, config } started run' →
              run'.InCombat fun combat => 0 ≤ combat.resources.energy := by
  intro hclaim
  have hplay : (wellRules leechEffects).perform (wellStarted leechEffects) (.play ⟨1⟩ none) =
      .ok (none, wellPlayed leechEffects) := perform_eq_of_answer (by decide +kernel)
  have hleft : (wellPlayed leechEffects).InCombat fun combat => 0 ≤ combat.resources.energy :=
    hclaim (wellPack leechEffects) {} (wellRules leechEffects).content wellRun ["dummy"]
      (wellStarted leechEffects) (wellPlayed leechEffects) rfl (well_heroes _) leech_never_sets
      (perform_eq_of_answer (by decide +kernel)) (.call .refl hplay)
  have henergy : (wellPlayed leechEffects).combat.map (·.resources.energy) = some (-4) := by
    decide +kernel
  obtain ⟨combat, hcombat, hvalue⟩ := Option.map_eq_some_iff.mp henergy
  have hnonneg := hleft combat hcombat
  omega

end Rules

end CardCombat
