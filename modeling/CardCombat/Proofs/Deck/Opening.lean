import CardCombat.Proofs.Deck.Drawing
import CardCombat.Proofs.Outcome.Answers
import CardCombat.Proofs.Turns.Calm
import CardCombat.Proofs.Turns.Intents

/-!
# The opening deal

A combat starts with the master deck, shuffled, with the innate cards on top. If no relic has a word
in it then nothing comes between this and the first hand: the enemies declare their moves, which
touches no card, and so many cards are drawn as a hand has. The discard pile is empty then, so what
is dealt is the top of the deck in its order, and the innate cards are dealt first.

## Main definitions

* `Steady` -- cards, player and relics are as before, and as many enemies live.
* `Piles.DealtFrom` -- the first hand was dealt from the deck.

## Main results

* `Resolution.openCombat_deals` -- the first moments of a combat in which nothing is triggered.
* `Rules.opening_dealt` -- the start of a combat.
-/

namespace CardCombat

open Resolution

variable {rules : Rules} {s t u : Scene} {run run' : Run} {combat : Combat} {deck : List Card}
  {rng : Rng} {id : CombatantId} {ids : List CombatantId} {a : Unit}

/-! ## The shuffled deck -/

/-- The innate cards lie above the others. -/
theorem Rules.shuffledDeck_pairwise (rules : Rules) (deck : List Card) (rng : Rng) :
    ((rules.shuffledDeck deck).run rng).1.Pairwise fun above below =>
      rules.isInnate below = true → rules.isInnate above = true := by
  have hsplit (cards : List Card) :
      ((cards.partition rules.isInnate).1 ++ (cards.partition rules.isInnate).2).Pairwise
        fun above below => rules.isInnate below = true → rules.isInnate above = true := by
    rw [List.partition_eq_filter_filter, List.pairwise_append]
    refine ⟨?_, ?_, fun above habove below _ _ => (List.mem_filter.mp habove).2⟩
    · exact List.pairwise_of_forall_mem_list fun above habove _ _ _ =>
        (List.mem_filter.mp habove).2
    · refine List.pairwise_of_forall_mem_list fun above _ below hbelow hinnate => ?_
      have hordinary := (List.mem_filter.mp hbelow).2
      simp [hinnate] at hordinary
  exact hsplit _

/-! ## Declarations -/

/-- Cards, player and relics are as before, and as many enemies live. -/
structure Steady (s t : Scene) : Prop where
  piles : t.combat.piles = s.combat.piles
  player : t.combat.player = s.combat.player
  relics : t.relics = s.relics
  living : t.combat.livingEnemies.length = s.combat.livingEnemies.length

namespace Steady

theorem flow : Flow Steady where
  refl _ := ⟨rfl, rfl, rfl, rfl⟩
  trans h h' := ⟨h'.piles.trans h.piles, h'.player.trans h.player, h'.relics.trans h.relics,
    h'.living.trans h.living⟩

/-- An enemy that lives or does not live, as before, was put in its place. -/
theorem of_setCombatant {before after : Combatant} (hid : id ≠ .player)
    (hc : s.combat.combatant? id = some before) (halive : after.isAlive = before.isAlive) :
    Steady s (s.setCombatant id after) := by
  have hliving := @Combat.length_livingEnemies_setCombatant s.combat id before after hid hc
  rw [halive] at hliving
  have hliving : (s.combat.setCombatant id after).livingEnemies.length =
    s.combat.livingEnemies.length := by omega
  have hcombat := s.setCombatant_combat id after
  have hrelics : (s.setCombatant id after).relics = s.relics := by
    unfold Scene.setCombatant
    split <;> rfl
  refine ⟨?_, ?_, hrelics, by rw [hcombat, hliving]⟩ <;>
    rw [hcombat, Combat.setCombatant_enemy hid]

theorem isDecided (h : Steady s t) : t.combat.isDecided = s.combat.isDecided :=
  Combat.isDecided_congr (congrArg _ h.player) h.living

end Steady

namespace Resolution

theorem chooseIntent_total (id : CombatantId) : Total (chooseIntent rules id) := by
  refine .bind (fun s => ⟨_, s, run_combatant?_iff.mpr ⟨rfl, rfl⟩⟩) fun found => ?_
  split
  · exact .pure _
  · split
    · exact .pure _
    · refine .bind (.draw _) fun chosen =>
        .bind (fun s => ⟨(), _, run_setCombatant_iff.mpr rfl⟩) fun _ => ?_
      cases chosen.bind _ with
      | none => exact .pure _
      | some intent => exact .modify _

/-- A declaration touches no card, and not the player, who is no enemy. -/
theorem chooseIntent_steady (hplayer : s.combat.player.enemy = none)
    (h : (chooseIntent rules id).run s = .ok (a, t)) : Steady s t := by
  rcases chooseIntent_of_run h with ⟨rfl, -⟩ | ⟨before, after, rng, declared, hc, hnew, rfl⟩
  · exact Steady.flow.refl s
  · rw [Scene.tell_eq]
    have hset : Steady s (({ s with rng } : Scene).setCombatant id after) := by
      by_cases hid : id = .player
      · subst hid
        obtain rfl : s.combat.player = before := Option.some.inj hc
        cases hnew with
        | nothing =>
            rw [Scene.setCombatant_player_of_isAlive rfl]
            exact ⟨rfl, rfl, rfl, rfl⟩
        | fresh henemy => exact absurd (hplayer.symm.trans henemy) nofun
      · have hdrawn : Steady s { s with rng } := ⟨rfl, rfl, rfl, rfl⟩
        exact Steady.flow.trans hdrawn (.of_setCombatant hid hc hnew.same.2)
    exact ⟨hset.piles, hset.player, hset.relics, hset.living⟩

theorem forM_chooseIntent_steady (hplayer : s.combat.player.enemy = none)
    (h : (ids.forM (chooseIntent rules)).run s = .ok (a, t)) : Steady s t := by
  induction ids generalizing s with
  | nil =>
      obtain ⟨-, rfl⟩ := run_pure_iff.mp h
      exact Steady.flow.refl s
  | cons id ids ih =>
      obtain ⟨_, u, hchoose, h⟩ := run_bind_iff.mp h
      have hsteady := chooseIntent_steady hplayer hchoose
      exact Steady.flow.trans hsteady (ih (by rw [hsteady.player, hplayer]) h)

theorem run_refresh_iff : refresh.run s = .ok (a, t) ↔
    ∃ energy, s.Refills energy ∧ s.playerBegins energy = t := by
  unfold refresh
  simp only [run_bind_iff, run_combat_iff, run_lift_iff, run_modifyCombat_iff]
  constructor
  · rintro ⟨_, _, ⟨rfl, rfl⟩, energy, _, ⟨hrefills, rfl⟩, rfl⟩
    exact ⟨energy, hrefills, rfl⟩
  · rintro ⟨energy, hrefills, rfl⟩
    exact ⟨_, _, ⟨rfl, rfl⟩, energy, _, ⟨hrefills, rfl⟩, rfl⟩

end Resolution

/-! ## The first moments -/

/-- Without a discard pile cards are drawn off the draw pile alone. -/
theorem Resolution.drawCards_of_nil (hdiscard : s.combat.piles.discardPile = []) (count : Nat) :
    ∃ t, (drawCards rules count).run s = .ok ((), t) ∧ t.relics = s.relics ∧
      t.combat.piles =
        s.combat.piles.drawing (s.combat.piles.drawable rules.config.handLimit count) [] ∧
      t.combat = { s.combat with piles := t.combat.piles, events := t.combat.events } := by
  obtain ⟨u, hrun, hdraws⟩ := exists_draws rules count s
  refine ⟨_, hrun, ?_⟩
  rw [Scene.tellDrawn_eq]
  cases hdraws with
  | straight _ hcombat _ _ hothers =>
      refine ⟨hothers.2.2, ?_, ?_⟩ <;> rw [hcombat]
  | anew hlt hle =>
      -- nothing would be there to shuffle
      rw [hdiscard, List.length_nil] at hle
      omega

/-- A player as one comes into a combat: without powers, and no enemy. -/
structure Combatant.Plain (player : Combatant) : Prop where
  powers : player.powers = []
  enemy : player.enemy = none

theorem Combatant.Plain.decay {player : Combatant} (h : player.Plain)
    (catalog : Catalog PowerDefinition) (boundary : Boundary) :
    player.decay catalog boundary = .ok ([], player) := by
  obtain ⟨id, name, health, maxHealth, block, barrier, powers, enemy⟩ := player
  obtain rfl : powers = [] := h.powers
  rfl

/-- Nothing is triggered on an occasion of a player without powers, if it is not by relics. -/
theorem Combatant.Plain.calm {occasion : Occasion} (h : s.combat.player.Plain)
    (hrelics : relicTriggers rules s.relics occasion = []) : s.Calm rules occasion := by
  refine ⟨?_, hrelics⟩
  unfold Combatant.triggersOn
  rw [h.powers]
  rfl

namespace Resolution

/-- **The first turn begins**: the top of the draw pile becomes the hand. -/
theorem openTurn_deals {energy : Int} (hplayer : s.combat.player.Plain)
    (hrelics : relicTriggers rules s.relics .turnStart = []) (henergy : s.Refills energy)
    (hdiscard : s.combat.piles.discardPile = []) :
    ∃ t, (openTurn rules true).run s = .ok ((), t) ∧
      t.combat.isDecided = s.combat.isDecided ∧
      t.combat.piles = s.combat.piles.drawing
        (s.combat.piles.drawable rules.config.handLimit rules.config.drawPerTurn) [] := by
  have hdeclare : Total ((s.begins energy).combat.livingEnemyIds.forM (chooseIntent rules)) :=
    .forM chooseIntent_total
  obtain ⟨⟨⟩, u, hchoose⟩ := hdeclare (s.begins energy)
  have hbegins : Steady s (s.begins energy) := ⟨rfl, rfl, rfl, rfl⟩
  have hsteady : Steady s u :=
    Steady.flow.trans hbegins (forM_chooseIntent_steady hplayer.enemy hchoose)
  obtain ⟨t, hdraw, hkept, hpiles, hcombat⟩ :=
    @drawCards_of_nil rules u (hsteady.piles ▸ hdiscard) rules.config.drawPerTurn
  rw [hsteady.piles] at hpiles
  have hplain : t.combat.player.Plain := by
    rw [hcombat, hsteady.player]
    exact hplayer
  have hcalm : t.Calm rules .turnStart := hplain.calm (by rw [hkept, hsteady.relics, hrelics])
  have hdecay : (decay rules .player .turnStart).run t = .ok ((), t) := by
    rw [run_decay_player, hplain.decay]
    rfl
  refine ⟨t, ?_, ?_, hpiles⟩
  · unfold openTurn
    refine run_bind_iff.mpr ⟨(), s, rfl, ?_⟩
    refine run_bind_iff.mpr ⟨(), _, run_refresh_iff.mpr ⟨energy, henergy, rfl⟩, ?_⟩
    refine run_bind_iff.mpr ⟨_, _, run_combat_iff.mpr ⟨rfl, rfl⟩, ?_⟩
    refine run_bind_iff.mpr ⟨(), _, run_report_iff.mpr rfl, ?_⟩
    refine run_bind_iff.mpr ⟨_, _, run_combat_iff.mpr ⟨rfl, rfl⟩, ?_⟩
    refine run_bind_iff.mpr ⟨(), u, hchoose, ?_⟩
    refine run_bind_iff.mpr ⟨(), t, hdraw, ?_⟩
    exact run_bind_iff.mpr ⟨(), t, run_happen_of_calm hcalm none {}, hdecay⟩
  · rw [hcombat]
    exact hsteady.isDecided

/-- **The first moments of a combat** in which nothing is triggered. -/
theorem openCombat_deals {energy : Int} (hplayer : s.combat.player.Plain)
    (hstart : relicTriggers rules s.relics .combatStart = [])
    (hturn : relicTriggers rules s.relics .turnStart = []) (henergy : s.Refills energy)
    (hgoing : s.combat.isDecided = false) (hdiscard : s.combat.piles.discardPile = []) :
    ∃ t, (openCombat rules).run s = .ok ((), t) ∧ t.combat.isDecided = false ∧
      t.combat.piles = s.combat.piles.drawing
        (s.combat.piles.drawable rules.config.handLimit rules.config.drawPerTurn) [] := by
  obtain ⟨t, hopen, hdecided, hpiles⟩ := openTurn_deals hplayer hturn henergy hdiscard
  refine ⟨t, ?_, hdecided.trans hgoing, hpiles⟩
  refine run_bind_iff.mpr ⟨(), s, run_happen_of_calm (hplayer.calm hstart) none {}, ?_⟩
  exact run_unlessDecided_iff.mpr (.inr ⟨hgoing, hopen⟩)

/-- The energy of the first turn is in range. -/
theorem refills_of_openCombat (hplayer : s.combat.player.Plain)
    (hstart : relicTriggers rules s.relics .combatStart = [])
    (hgoing : s.combat.isDecided = false) (h : (openCombat rules).run s = .ok (a, t)) :
    ∃ energy, s.Refills energy := by
  unfold openCombat at h
  rw [run_bind_of_ok (run_happen_of_calm (hplayer.calm hstart) none {})] at h
  rcases run_unlessDecided_iff.mp h with ⟨hdecided, -⟩ | ⟨-, h⟩
  · exact absurd (hdecided.symm.trans hgoing) nofun
  · obtain ⟨_, u, hnext, h⟩ := run_bind_iff.mp h
    obtain ⟨-, rfl⟩ := run_pure_iff.mp hnext
    obtain ⟨_, _, hrefresh, -⟩ := run_bind_iff.mp h
    obtain ⟨energy, henergy, -⟩ := run_refresh_iff.mp hrefresh
    exact ⟨energy, henergy⟩

end Resolution

/-! ## Those who gather -/

namespace Rules

variable {templates : List EnemyTemplate} {names : List String}

/-- Enemies that are known have templates. -/
theorem exists_enemyTemplates
    (hknown : ∀ name ∈ names, ∃ template, rules.content.enemies.find? name = some template) :
    ∃ templates, rules.enemyTemplates names = .ok templates ∧
      templates.length = names.length := by
  induction names with
  | nil => exact ⟨[], rfl, rfl⟩
  | cons name names ih =>
      obtain ⟨template, hfind⟩ := hknown name List.mem_cons_self
      obtain ⟨templates, htemplates, hlength⟩ :=
        ih fun other hmem => hknown other (List.mem_cons_of_mem _ hmem)
      refine ⟨template :: templates, ?_, by rw [List.length_cons, hlength, List.length_cons]⟩
      unfold enemyTemplates at htemplates ⊢
      rw [List.mapM_cons, hfind]
      exact bind_eq_ok.mpr ⟨template, rfl, bind_eq_ok.mpr ⟨templates, htemplates, rfl⟩⟩

/-- An enemy that has just come lives. -/
theorem isAlive_of_spawn {template : EnemyTemplate} {catalog : Catalog PowerDefinition}
    {enemy : Combatant} (h : template.spawn id catalog = .ok enemy) : enemy.isAlive = true := by
  refine foldlM_preserves (P := fun combatant : Combatant => combatant.isAlive = true)
    (fun {combatant start given} hgiven halive => ?_) h ?_
  · obtain ⟨⟨applied, changed⟩, happly, hgiven⟩ := bind_eq_ok.mp hgiven
    obtain rfl := Except.ok.inj hgiven
    exact (Combatant.applyPower_sameButPowers happly).isAlive.trans halive
  · exact Combatant.isAlive_iff.mpr (Int.lt_of_lt_of_le Int.one_pos (Int.le_max_right _ _))

theorem enemies_ne_nil_of_addEnemy {template : EnemyTemplate} {joined : Combat}
    (h : rules.addEnemy combat template = .ok joined) : joined.enemies ≠ [] := by
  obtain ⟨issued, -, h⟩ := bind_eq_ok.mp h
  obtain ⟨enemy, -, h⟩ := bind_eq_ok.mp h
  obtain rfl := Except.ok.inj h
  simp

/-- Somebody comes if somebody was called. -/
theorem enemies_ne_nil_of_gather (hsome : templates ≠ [])
    (h : rules.gather run templates = .ok combat) : combat.enemies ≠ [] := by
  obtain ⟨nextCardUid, -, h⟩ := bind_eq_ok.mp h
  cases templates with
  | nil => exact absurd rfl hsome
  | cons template templates =>
      rw [List.foldlM_cons] at h
      obtain ⟨joined, hfirst, h⟩ := bind_eq_ok.mp h
      exact foldlM_preserves (P := fun combat : Combat => combat.enemies ≠ [])
        (fun hadd _ => enemies_ne_nil_of_addEnemy hadd) h (enemies_ne_nil_of_addEnemy hfirst)

/-- **Those who gather** have the combat before them. -/
theorem isDecided_of_gather (halive : 0 < run.health) (hsome : templates ≠ [])
    (h : rules.gather run templates = .ok combat) : combat.isDecided = false := by
  have henemies := enemies_ne_nil_of_gather hsome h
  obtain ⟨nextCardUid, -, enemies, nextEnemyId, rfl, hspawn⟩ := gather_spec h
  have hplayer : (rules.startingPlayer run).isAlive = true := by
    refine Combatant.isAlive_iff.mpr ?_
    unfold startingPlayer Combatant.ofPlayer
    dsimp only
    omega
  have hliving : enemies.filter (·.isAlive) = enemies := by
    refine List.filter_eq_self.mpr fun enemy hmem => ?_
    obtain ⟨template, id, hspawn⟩ := hspawn enemy hmem
    exact isAlive_of_spawn hspawn
  unfold Combat.isDecided Combat.livingEnemies
  dsimp only at henemies ⊢
  rw [hplayer, hliving]
  simpa using henemies

/-- Nothing was kept for the first turn. -/
theorem refills_startingResources_iff (hs : s.combat.resources = rules.startingResources run) :
    (∃ energy, s.Refills energy) ↔ Signed.Fits (rules.startingResources run).maxEnergy := by
  have hnothing : (rules.startingResources run).energyNextTurn = 0 := by
    unfold startingResources
    split <;> rfl
  unfold Scene.Refills
  rw [hs, hnothing]
  simp only [Signed.add_eq_ok_iff, Int.add_zero]
  exact ⟨fun ⟨_, hfits, _⟩ => hfits, fun hfits => ⟨_, hfits, rfl⟩⟩

end Rules

/-! ## The deal -/

/-- The first hand was dealt from a deck: as many cards as are drawn in a turn and fit, or all, and
the innate cards before the others. -/
structure Piles.DealtFrom (rules : Rules) (deck : List Card) (piles : Piles) : Prop where
  cards : piles.cards.Perm deck
  discardPile : piles.discardPile = []
  exhaustPile : piles.exhaustPile = []
  hand : piles.hand.length =
    min (min rules.config.drawPerTurn rules.config.handLimit) deck.length
  innate : (piles.hand ++ piles.drawPile).Pairwise fun above below =>
    rules.isInnate below = true → rules.isInnate above = true
  fits : deck.countP rules.isInnate ≤ piles.hand.length →
    ∀ card ∈ piles.drawPile, rules.isInnate card = false

/-- If a card below the hand is innate, then so is the whole hand, and it does not fit. -/
theorem Rules.not_isInnate_of_fits {hand drawPile : List Card}
    (hinnate : (hand ++ drawPile).Pairwise fun above below =>
      rules.isInnate below = true → rules.isInnate above = true)
    (hfits : (hand ++ drawPile).countP rules.isInnate ≤ hand.length) :
    ∀ card ∈ drawPile, rules.isInnate card = false := by
  intro card hmem
  cases hcard : rules.isInnate card with
  | false => rfl
  | true =>
      have hall : hand.countP rules.isInnate = hand.length :=
        List.countP_eq_length.mpr fun above habove =>
          (List.pairwise_append.mp hinnate).2.2 above habove card hmem hcard
      have hmore : 0 < drawPile.countP rules.isInnate := List.countP_pos_iff.mpr ⟨card, hmem, hcard⟩
      rw [List.countP_append, hall] at hfits
      omega

/-- **The top of the shuffled deck** is a hand that was dealt from the deck. -/
theorem Piles.dealtFrom_drawing {order : List Card} (hcards : order.Perm deck)
    (hinnate : order.Pairwise fun above below =>
      rules.isInnate below = true → rules.isInnate above = true) :
    (({ drawPile := order } : Piles).drawing (({ drawPile := order } : Piles).drawable
      rules.config.handLimit rules.config.drawPerTurn) []).DealtFrom rules deck := by
  rw [drawing_nil]
  generalize hnumber : ({ drawPile := order } : Piles).drawable rules.config.handLimit
    rules.config.drawPerTurn = number
  have hwhole : order.take number ++ order.drop number = order := List.take_append_drop number order
  have hlength : (order.take number).length =
      min (min rules.config.drawPerTurn rules.config.handLimit) deck.length := by
    rw [List.length_take, ← hnumber, ← hcards.length_eq]
    simp [drawable, wanted]
  refine
    { cards := ?_
      discardPile := rfl
      exhaustPile := rfl
      hand := hlength
      innate := by simpa using hinnate
      fits := fun hfits => Rules.not_isInnate_of_fits (hwhole.symm ▸ hinnate) ?_ }
  · simpa [Piles.cards] using hcards
  · rw [hwhole, hcards.countP_eq]
    exact hfits

/-! ## The start of a combat -/

namespace Rules

/-- The run when those who fight have gathered and the shuffled deck is on the table. -/
def tabled (rules : Rules) (run : Run) (combat : Combat) : Run :=
  { run with
    combat := some { combat with
      piles := { drawPile := ((rules.shuffledDeck run.deck).run run.rng).1 } }
    rng := ((rules.shuffledDeck run.deck).run run.rng).2 }

/-- The scene in which the first moments of the combat come about. -/
def table (rules : Rules) (run : Run) (combat : Combat) : Scene where
  combat := { combat with piles := { drawPile := ((rules.shuffledDeck run.deck).run run.rng).1 } }
  gold := run.gold
  stats := run.stats
  relics := run.relics
  rng := ((rules.shuffledDeck run.deck).run run.rng).2

variable {names : List String} {templates : List EnemyTemplate}

theorem scene?_tabled : (rules.tabled run combat).scene? = some (rules.table run combat) := rfl

/-- It is the turn of a player who has come without powers, with what a player starts with. -/
theorem table_of_gather (h : rules.gather run templates = .ok combat) :
    (rules.table run combat).combat.player.Plain ∧
      (rules.table run combat).combat.resources = rules.startingResources run ∧
        (rules.table run combat).combat.phase = .playerTurn := by
  obtain ⟨nextCardUid, -, enemies, nextEnemyId, rfl, -⟩ := gather_spec h
  exact ⟨⟨rfl, rfl⟩, rfl, rfl⟩

/-- A combat is started when those who fight have gathered. -/
theorem perform_start (htemplates : rules.enemyTemplates names = .ok templates)
    (hgather : rules.gather run templates = .ok combat) :
    rules.perform run (.start names) = (do
      let run' ← (rules.tabled run combat).advance (openCombat rules)
      return (none, run')) := by
  have hstart : rules.startCombat run names =
      ((rules.tabled run combat).advance (openCombat rules) :
        Except (Failure ContentError) Run) := by
    unfold startCombat
    rw [htemplates]
    change ((rules.gather run templates : Except (Failure ContentError) Combat) >>= _) = _
    rw [hgather]
    rfl
  refine (congrArg (Failure.reply .content run) hstart).trans ?_
  cases (rules.tabled run combat).advance (openCombat rules) <;> rfl

/-- Those who fight have gathered if a combat was started. -/
theorem exists_gather_of_accepted (h : rules.perform run (.start names) = .ok (none, run')) :
    ∃ templates combat, rules.enemyTemplates names = .ok templates ∧
      rules.gather run templates = .ok combat ∧
        (rules.tabled run combat).advance (openCombat rules) = .ok run' := by
  obtain ⟨s, t, m, hm, -⟩ := undertakes_of_accepted h
  generalize s.combat = table at hm
  cases hm with
  | start htemplates hgather =>
      rw [perform_start htemplates hgather] at h
      obtain ⟨after, hadvance, hafter⟩ := bind_eq_ok.mp h
      obtain ⟨-, rfl⟩ := Prod.mk.inj (Except.ok.inj hafter)
      exact ⟨_, _, htemplates, hgather, hadvance⟩

section Opening

variable (hstart : relicTriggers rules run.relics .combatStart = []) (halive : 0 < run.health)
  (hsome : templates ≠ []) (hgather : rules.gather run templates = .ok combat)

include hstart halive hsome hgather

/-- There is the energy for the first turn if the combat has begun. -/
theorem fits_of_advance
    (hadvance : (rules.tabled run combat).advance (openCombat rules) = .ok run') :
    Signed.Fits (rules.startingResources run).maxEnergy := by
  obtain ⟨hplayer, hresources, -⟩ := table_of_gather hgather
  have hgoing := isDecided_of_gather halive hsome hgather
  obtain ⟨resolved, hresolve, -⟩ := bind_eq_ok.mp hadvance
  obtain ⟨⟨⟨⟩, t⟩, hrun, -⟩ := bind_eq_ok.mp hresolve
  exact (refills_startingResources_iff hresources).mp
    (refills_of_openCombat hplayer hstart hgoing hrun)

/-- **The first hand is dealt** if there is the energy for the first turn. -/
theorem dealt_of_fits (hturn : relicTriggers rules run.relics .turnStart = [])
    (hfits : Signed.Fits (rules.startingResources run).maxEnergy) :
    ∃ t, (rules.tabled run combat).advance (openCombat rules) =
        .ok ((rules.tabled run combat).withScene t) ∧
      t.combat.piles.DealtFrom rules run.deck := by
  obtain ⟨hplayer, hresources, hphase⟩ := table_of_gather hgather
  have hgoing := isDecided_of_gather halive hsome hgather
  obtain ⟨energy, henergy⟩ := (refills_startingResources_iff hresources).mpr hfits
  obtain ⟨t, hrun, hdecided, hpiles⟩ :=
    openCombat_deals hplayer hstart hturn henergy hgoing rfl
  refine ⟨t, Run.advance_of_run scene?_tabled hrun (openCombat_phase hphase hrun) hdecided, ?_⟩
  rw [hpiles]
  exact Piles.dealtFrom_drawing (shuffledDeck_perm _ _) (rules.shuffledDeck_pairwise _ _)

end Opening

/-- **The opening deal.** With a living player and known enemies, and unless a relic has a word in
it, the first hand is dealt from the whole deck. Nothing can come between but a number that leaves
its range when those who fight gather, or the energy of the first turn. -/
theorem opening_dealt (rules : Rules)
    (hstart : relicTriggers rules run.relics .combatStart = [])
    (hturn : relicTriggers rules run.relics .turnStart = []) (halive : 0 < run.health)
    (hsome : names ≠ [])
    (hknown : ∀ name ∈ names, ∃ template, rules.content.enemies.find? name = some template) :
    ((∃ run', rules.perform run (.start names) = .ok (none, run')) ↔
        (∃ templates combat, rules.enemyTemplates names = .ok templates ∧
          rules.gather run templates = .ok combat) ∧
            Signed.Fits (rules.startingResources run).maxEnergy) ∧
      ∀ run', rules.perform run (.start names) = .ok (none, run') →
        ∃ combat, run'.combat = some combat ∧ combat.piles.DealtFrom rules run.deck := by
  obtain ⟨templates, htemplates, hlength⟩ := exists_enemyTemplates hknown
  have hcalled : templates ≠ [] := by
    rw [← List.length_pos_iff, hlength]
    exact List.length_pos_iff.mpr hsome
  have hbegins {run' : Run} (h : rules.perform run (.start names) = .ok (none, run')) :
      ∃ combat, rules.gather run templates = .ok combat ∧
        Signed.Fits (rules.startingResources run).maxEnergy ∧
          (rules.tabled run combat).advance (openCombat rules) = .ok run' := by
    obtain ⟨found, combat, hfound, hgather, hadvance⟩ := exists_gather_of_accepted h
    obtain rfl := Except.ok.inj (htemplates.symm.trans hfound)
    exact ⟨combat, hgather, fits_of_advance hstart halive hcalled hgather hadvance, hadvance⟩
  constructor
  · constructor
    · rintro ⟨run', h⟩
      obtain ⟨combat, hgather, hfits, -⟩ := hbegins h
      exact ⟨⟨templates, combat, htemplates, hgather⟩, hfits⟩
    · rintro ⟨⟨found, combat, hfound, hgather⟩, hfits⟩
      obtain rfl := Except.ok.inj (htemplates.symm.trans hfound)
      obtain ⟨t, hadvance, -⟩ := dealt_of_fits hstart halive hcalled hgather hturn hfits
      exact ⟨_, (perform_start htemplates hgather).trans (by rw [hadvance]; rfl)⟩
  · intro run' h
    obtain ⟨combat, hgather, hfits, hadvance⟩ := hbegins h
    obtain ⟨t, hdealt, hpiles⟩ := dealt_of_fits hstart halive hcalled hgather hturn hfits
    obtain rfl := Except.ok.inj (hdealt.symm.trans hadvance)
    exact ⟨t.combat, rfl, hpiles⟩

/-- The peek is innate, so it is in the hand of one card when its combat has begun. -/
theorem opening_dealt_of_peek :
    ∃ combat, peekStarted.combat = some combat ∧
      combat.piles.DealtFrom peekRules peekRun.deck ∧ combat.piles.hand.length = 1 ∧
        ∀ card ∈ combat.piles.drawPile, peekRules.isInnate card = false := by
  have hknown : ∀ name ∈ ["dummy"], ∃ template,
      peekRules.content.enemies.find? name = some template := by
    intro name hmem
    rw [List.mem_singleton.mp hmem]
    exact Option.isSome_iff_exists.mp rfl
  obtain ⟨-, hdealt⟩ :=
    @opening_dealt peekRun ["dummy"] peekRules rfl rfl (by decide) (by decide) hknown
  obtain ⟨combat, hc, hfrom⟩ := hdealt peekStarted peek_starts
  have hhand : combat.piles.hand.length = 1 := hfrom.hand
  have hinnate : peekRun.deck.countP peekRules.isInnate = 1 := by decide +kernel
  exact ⟨combat, hc, hfrom, hhand, hfrom.fits (by rw [hinnate, hhand])⟩

end Rules

end CardCombat
