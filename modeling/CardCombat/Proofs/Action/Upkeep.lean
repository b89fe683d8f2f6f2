import CardCombat.Action.Play
import CardCombat.Action.Selection
import CardCombat.Action.Start
import CardCombat.Proofs.Card.Piles
import CardCombat.Proofs.Resolution.Prevails

/-!
# Turns and plays

What a call sets going is made of effects and triggers, of plain steps, and of what happens only at
the boundaries of turns and plays. The relation `Upkeep` lists what belongs to turns and abilities,
`Enters` says how a card comes into play out of the hand. A relation that all of these keep governs
the turns and plays, whatever they do; one that is not kept when a card is paid for still presides
over the turns.

The phase is changed in two places only, where the turn of the enemies begins and where the player
gets new energy. A relation need not hold of these two changes to govern everything else, so they
are kept apart.

## Main definitions

* `Upkeep`, `Enters` -- what happens at the boundaries of turns and plays.
* `Presides`, `Governs` -- a relation that holds of all that happens in turns, and in plays too.

## Main results

* `Presides.enemiesTurn_of_run`, `.openTurn_of_run` -- the turns, with the changes of phase.
* `Presides.passTurn`, `.useAbility`, `.settleSelection`, `Governs.play` -- what calls set going.
-/

namespace CardCombat

/-! ## What happens at the boundaries -/

/-- The events that are reported at the boundaries of turns. -/
def Event.IsSign : Event → Prop
  | .powerRemoved .. | .intent .. | .heroAbility | .turnStart _ => True
  | _ => False

namespace Scene

/-- It is the enemies' turn. -/
def enemiesBegin (scene : Scene) : Scene :=
  { scene with combat := { scene.combat with phase := .enemyTurn } }

/-- It is the player's turn, with so much energy. -/
def playerBegins (scene : Scene) (energy : Int) : Scene :=
  { scene with combat := { scene.combat with
      phase := .playerTurn, cardsPlayedThisTurn := 0
      resources := { scene.combat.resources with
        energy, energyNextTurn := 0, abilityUsedThisTurn := false } } }

/-- The energy of the player's next turn: the greatest energy and what was kept for it. -/
def Refills (scene : Scene) (energy : Int) : Prop :=
  Signed.add scene.combat.resources.maxEnergy scene.combat.resources.energyNextTurn = .ok energy

/-- A card is remembered as the one that was played last. -/
def remember (scene : Scene) (card : Card) : Scene :=
  { scene with combat := { scene.combat with lastPlayed := some card } }

/-- No selection waits for an answer any more. -/
def forget (scene : Scene) : Scene :=
  { scene with combat := { scene.combat with pending := none } }

/-- A card that was chosen among new ones comes into a pile. -/
def deal (rules : Rules) (scene : Scene) (card : Card) (pile : Pile) : Scene :=
  (scene.arrive card (scene.landing rules pile) .bottom).report
    (.addCard card.uid card.definition (scene.landing rules pile))

end Scene

/-- What happens at the boundaries of turns, and when the ability is used. -/
inductive Upkeep (rules : Rules) (s : Scene) : Scene → Prop
  | told {event : Event} (h : event.IsSign) : Upkeep rules s (s.report event)
  -- combatants
  | decayed {id before after boundary ticks} (hc : s.combat.combatant? id = some before)
      (h : before.decay rules.content.powers boundary = .ok (ticks, after)) :
      Upkeep rules s (s.setCombatant id after)
  | eased {id before} (hc : s.combat.combatant? id = some before) :
      Upkeep rules s (s.setCombatant id { before with powers := before.powers.passSilence })
  | bared {id before} (hc : s.combat.combatant? id = some before) :
      Upkeep rules s (s.setCombatant id { before with block := 0 })
  | moved {id before} {moveIndex : Nat} (hc : s.combat.combatant? id = some before) :
      Upkeep rules s (s.setCombatant id { before with enemy := before.enemy.map fun enemy =>
        { enemy with lastMove := some moveIndex, intent := none } })
  | declared {id before enemy template chosen rng} (hc : s.combat.combatant? id = some before)
      (he : before.enemy = some enemy)
      (ht : rules.content.enemies.find? enemy.template = some template)
      (hn : (template.nextMove enemy.lastMove).run s.rng = (chosen, rng)) :
      Upkeep rules s (({ s with rng } : Scene).setCombatant id
        { before with enemy := some { enemy with intent := chosen.bind template.intent? } })
  -- cards
  | released (uid : CardUid) :
      Upkeep rules s (s.withPiles (s.combat.piles.modify uid ({ · with retained := false })))
  -- the player
  | turned {turn} (h : Unsigned.add 32 s.combat.turn 1 = .ok turn) :
      Upkeep rules s { s with combat :=
        { s.combat with turn, player := { s.combat.player with block := 0 } } }
  | charged {charged} (h : Unsigned.add 32 s.combat.resources.abilityCharge
        rules.config.chargePerCard = .ok charged) :
      Upkeep rules s (s.withResources { s.combat.resources with
        abilityCharge := min charged s.combat.resources.abilityChargeRequired })
  | discharged :
      Upkeep rules s (s.withResources { s.combat.resources with
        abilityCharge := 0, abilityUsedThisTurn := true })

/-- Energy was spent. -/
inductive Pays (cost : Int) (s : Scene) : Scene → Prop
  | nothing (h : cost ≤ 0) : Pays cost s s
  | energy {energy delta : Int} (h : Signed.sub s.combat.resources.energy cost = .ok energy)
      (hd : Signed.neg cost = .ok delta) :
      Pays cost s ((s.withResources { s.combat.resources with energy }).report
        (.energy delta energy))

/-- A card has come into play out of the hand, and so much was paid for it. -/
inductive Enters (card : Card) (cost : Int) (s : Scene) : Scene → Prop
  | mk {piles paid cardsPlayedThisTurn cardsPlayed}
      (h : s.combat.piles.takeFrom? .hand card.uid = some (card, piles))
      (hp : Pays cost (s.withPiles piles) paid) :
      Enters card cost s { paid with
        combat := { paid.combat.pushInPlay card with cardsPlayedThisTurn }
        stats := { paid.stats with cardsPlayed } }

namespace Resolution

variable {R : Scene → Scene → Prop} {s t : Scene} {id : CombatantId} {a : Unit}

/-- Something is done with a combatant if it is there. -/
theorem ensures_combatant? {β : Type} {f : Option Combatant → Resolution β}
    (hnone : Ensures R (f none))
    (hsome : ∀ {s : Scene} {combatant b t}, s.combat.combatant? id = some combatant →
      (f (some combatant)).run s = .ok (b, t) → R s t) :
    Ensures R (combatant? id >>= f) := by
  refine ⟨fun {s b t} h => ?_⟩
  obtain ⟨found, _, hfound, h⟩ := run_bind_iff.mp h
  obtain ⟨hc, rfl⟩ := run_combatant?_iff.mp hfound
  cases found with
  | none => exact hnone h
  | some combatant => exact hsome hc h

theorem pays_of_run {cost : Int} (h : (payEnergy cost).run s = .ok (a, t)) : Pays cost s t := by
  unfold payEnergy at h
  split at h
  · simp only [run_bind_iff, run_combat_iff, run_lift_iff, run_setResources_iff,
      run_report_iff] at h
    obtain ⟨_, _, ⟨rfl, rfl⟩, energy, _, ⟨hsub, rfl⟩, _, _, rfl, delta, _, ⟨hneg, rfl⟩, rfl⟩ := h
    exact .energy hsub hneg
  · obtain ⟨-, rfl⟩ := run_pure_iff.mp h
    exact .nothing (by omega)

theorem run_placeNew_iff {card : Card} {pile : Pile} :
    (placeNew rules card pile .bottom).run s = .ok (a, t) ↔ s.deal rules card pile = t := by
  unfold placeNew
  simp only [run_bind_iff, run_place_iff, run_report_iff]
  constructor
  · rintro ⟨_, _, ⟨rfl, rfl⟩, rfl⟩
    rfl
  · rintro rfl
    exact ⟨_, _, ⟨rfl, rfl⟩, rfl⟩

/-- A card that has left the hand and was paid for is in play. -/
theorem enters_of_run {card : Card} {uid : CardUid} {cost : Int} {piles : Piles} {v : Scene}
    (htake : s.combat.piles.takeFrom? .hand uid = some (card, piles))
    (hpay : Pays cost (s.withPiles piles) v) (h : (enterPlay card).run v = .ok (a, t)) :
    Enters card cost s t := by
  obtain rfl : card.uid = uid := (@Piles.count_of_takeFrom? _ _ _ _ _ uid htake).1
  unfold enterPlay at h
  simp only [run_bind_iff, run_get_iff, run_lift_iff, run_set_iff] at h
  obtain ⟨_, _, ⟨rfl, rfl⟩, turn, _, ⟨-, rfl⟩, total, _, ⟨-, rfl⟩, rfl⟩ := h
  exact .mk htake hpay

/-- What goes on while a card of the hand is in play: its effects are carried out, and then the
triggers of its play. -/
def whileInPlay (rules : Rules) (play : Play) (card : Card) (target : Option CombatantId) :
    Resolution Unit := do
  let ctx : Context := { card := some play.card.uid, target, xCost := play.xCost }
  carryOut rules (play.definition.effectsWhen card.upgraded) ctx
  happen rules .player .cardPlayed none ctx
  (Occasion.ofTheme? play.definition.theme).forM fun occasion =>
    happen rules .player occasion none ctx

/-- The play of a card, if it is in the hand: it comes into play, what goes on meanwhile goes on, the
play is over, and then it is remembered and the ability is charged. -/
theorem run_play {rules : Rules} {play : Play} {target : Option CombatantId}
    (h : (Resolution.play rules play target).run s = .ok (a, t)) :
    (s.combat.piles.takeFrom? .hand play.card.uid = none ∧ s = t) ∨
      ∃ card piles v w x, s.combat.piles.takeFrom? .hand play.card.uid = some (card, piles) ∧
        Enters card play.cost s v ∧ (whileInPlay rules play card target).run v = .ok ((), w) ∧
          (endPlay rules card.uid).run w = .ok ((), x) ∧
            (do modifyCombat ({ · with lastPlayed := some card })
                charge rules : Resolution Unit).run x = .ok ((), t) := by
  unfold Resolution.play at h
  obtain ⟨_, _, hcombat, h⟩ := run_bind_iff.mp h
  obtain ⟨rfl, rfl⟩ := run_combat_iff.mp hcombat
  split at h
  case h_1 hnone => exact .inl ⟨hnone, (run_pure_iff.mp h).2⟩
  case h_2 card piles htake =>
    have hid : card.uid = play.card.uid := (@Piles.count_of_takeFrom? _ _ _ _ _ ⟨0⟩ htake).1
    obtain ⟨_, _, hset, h⟩ := run_bind_iff.mp h
    obtain rfl := run_setPiles_iff.mp hset
    obtain ⟨_, paid, hpay, h⟩ := run_bind_iff.mp h
    obtain ⟨_, v, henter, h⟩ := run_bind_iff.mp h
    have henters : Enters card play.cost s v := enters_of_run htake (pays_of_run hpay) henter
    obtain ⟨_, w₁, hcarry, h⟩ := run_bind_iff.mp h
    obtain ⟨_, w₂, hhappen, h⟩ := run_bind_iff.mp h
    obtain ⟨_, w₃, htheme, h⟩ := run_bind_iff.mp h
    have hin : (whileInPlay rules play card target).run v = .ok ((), w₃) :=
      run_bind_iff.mpr ⟨_, w₁, hcarry, run_bind_iff.mpr ⟨_, w₂, hhappen, htheme⟩⟩
    obtain ⟨_, x, hend, h⟩ := run_bind_iff.mp h
    exact .inr ⟨card, piles, v, w₃, x, htake, henters, hin, hid ▸ hend, h⟩

/-! ## Answers to selections -/

variable {rules : Rules} {may : Effect → Prop}

/-- What is done with a chosen card, unless it is new. -/
theorem settleChoice_course {kind : SelectionKind} (hk : ∀ pile, kind ≠ .discover pile)
    (card : Card) : Ensures (Course rules may) (settleChoice rules kind card) := by
  refine Ensures.course ?_
  cases kind with
  | banish => exact banishCard_course card.uid
  | discard => exact discardCard_course card.uid
  | scry => exact moveTo_course (.inl ⟨rfl, rfl⟩)
  | discover pile => exact absurd rfl (hk pile)
  | tutor pile => exact fetch_course card pile

/-- The answer to a selection: it is forgotten, and what is done with the chosen cards is done in
plain steps, or new cards that were offered come into a pile. -/
theorem settleSelection_ensures {selection : Selection} (hR : Flow R)
    (hcourse : ∀ {s t}, Course rules may s t → R s t) (hforget : ∀ s : Scene, R s s.forget)
    (hdeal : ∀ pile, selection.kind = .discover pile →
      ∀ s, ∀ card ∈ selection.candidates, R s (s.deal rules card pile))
    (chosen : List CardUid) : Ensures R (settleSelection rules selection chosen) := by
  refine Ensures.bind hR ⟨fun h => run_modifyCombat_iff.mp h ▸ hforget _⟩ fun _ =>
    Ensures.forM hR fun card hmem => ?_
  by_cases hnew : ∃ pile, selection.kind = .discover pile
  · obtain ⟨pile, hkind⟩ := hnew
    rw [hkind]
    have hoffered := List.mem_of_mem_filter hmem
    exact ⟨fun h => run_placeNew_iff.mp h ▸ hdeal pile hkind _ card hoffered⟩
  · exact (settleChoice_course (fun pile hkind => hnew ⟨pile, hkind⟩) card).mono fun _ _ => hcourse

end Resolution

open Resolution

/-- A relation that holds of all that happens in turns, apart from the changes of phase. -/
structure Presides (rules : Rules) (may : Effect → Prop) (R : Scene → Scene → Prop) : Prop where
  flow : Flow R
  step : ∀ {s t}, Step rules Effect.None s t → R s t
  upkeep : ∀ {s t}, Upkeep rules s t → R s t
  buried : ∀ s : Scene, R s s.bury
  /-- Effects are carried out for no card in particular. -/
  carryOut : ∀ {effects}, (∀ effect ∈ effects, may effect) → ∀ {ctx : Context},
    ctx.currentCard = none → Ensures R (carryOut rules effects ctx)
  happen : ∀ owner occasion cause ctx, Ensures R (happen rules owner occasion cause ctx)
  /-- An enemy acts as it has declared. -/
  act : ∀ {s : Scene} {id combatant intent ctx a t}, ctx.currentCard = none →
    s.combat.combatant? id = some combatant → combatant.intent = some intent →
      (Resolution.carryOut rules intent.effects ctx).run (s.report (.intent id intent.name)) =
        .ok (a, t) → R s t

/-- A relation that holds of all that happens in turns and plays, apart from the changes of
phase. -/
structure Governs (rules : Rules) (may : Effect → Prop) (R : Scene → Scene → Prop) : Prop
    extends Presides rules may R where
  /-- A card is played out of the hand, and remembered. -/
  played : ∀ {card cost s u v t}, Enters card cost s u → R u v → Closes rules card.uid v t →
    R s (t.remember card)

namespace Presides

variable {rules : Rules} {may : Effect → Prop} {R : Scene → Scene → Prop} {s t : Scene}
  {id : CombatantId} {a : Unit}

/-! ## Parts -/

section Parts

variable (hg : Presides rules may R)

include hg

theorem course (h : Course rules Effect.None s t) : R s t := by
  induction h with
  | refl => exact hg.flow.refl s
  | tail _ hstep ih => exact hg.flow.trans ih (hg.step hstep)

theorem of_course {α : Type} {m : Resolution α} (h : Ensures (Course rules Effect.None) m) :
    Ensures R m := h.mono fun _ _ => hg.course

theorem tell {event : Event} (h : event.IsSign) : Ensures R (report event) :=
  ⟨fun hrun => run_report_iff.mp hrun ▸ hg.upkeep (.told h)⟩

theorem bury : Ensures R bury := ⟨fun h => run_bury_iff.mp h ▸ hg.buried _⟩

theorem decay (id : CombatantId) (boundary : Boundary) : Ensures R (decay rules id boundary) := by
  refine ensures_combatant? (Ensures.pure hg.flow ()) fun {s combatant b t} hc h => ?_
  simp only [run_bind_iff, run_lift_iff, run_setCombatant_iff] at h
  obtain ⟨⟨ticks, after⟩, _, ⟨hdecay, rfl⟩, _, _, rfl, h⟩ := h
  have hset : R s (s.setCombatant id after) := hg.upkeep (.decayed hc hdecay)
  exact hg.flow.trans hset (Ensures.forM hg.flow (fun _ _ => hg.tell (by trivial)) |>.rel h)

theorem passSilence (id : CombatantId) : Ensures R (passSilence id) :=
  ensures_combatant? (Ensures.pure hg.flow ()) fun hc h =>
    run_setCombatant_iff.mp h ▸ hg.upkeep (.eased hc)

/-! ## The end of the player's turn -/

theorem putAway (card : Card) : Ensures R (putAway rules card) := by
  unfold Resolution.putAway
  dsimp only
  split
  · refine ⟨fun {s a t} h => ?_⟩
    obtain ⟨_, _, hcombat, h⟩ := run_bind_iff.mp h
    obtain ⟨rfl, rfl⟩ := run_combat_iff.mp hcombat
    obtain rfl := run_setPiles_iff.mp h
    exact hg.upkeep (.released card.uid)
  · split
    · exact hg.of_course (moveTo_course (.inr ⟨rfl, rfl⟩)).course
    · exact hg.of_course (moveTo_course (.inl ⟨rfl, rfl⟩)).course

theorem closeTurn : Ensures R (closeTurn rules) :=
  Ensures.bind hg.flow (hg.happen _ _ _ _) fun _ => Ensures.bind hg.flow (hg.decay _ _) fun _ =>
    Ensures.bind hg.flow (hg.passSilence _) fun _ => Ensures.combat hg.flow fun _ =>
      Ensures.forM hg.flow fun card _ => hg.putAway card

/-! ## The enemies' turn -/

theorem makeMove {combatant : Combatant} {intent : Intent}
    (hc : s.combat.combatant? id = some combatant) (hi : combatant.intent = some intent)
    (h : (makeMove rules id intent).run s = .ok (a, t)) : R s t := by
  obtain ⟨_, _, hreport, h⟩ := run_bind_iff.mp h
  obtain rfl := run_report_iff.mp hreport
  obtain ⟨_, v, hcarry, h⟩ := run_bind_iff.mp h
  refine hg.flow.trans (hg.act (by rfl) hc hi hcarry) ?_
  refine (ensures_combatant? (Ensures.pure hg.flow ()) fun {s combatant b t} hc h => ?_).rel h
  exact run_setCombatant_iff.mp h ▸ hg.upkeep (.moved hc)

theorem enemyTurn (id : CombatantId) : Ensures R (enemyTurn rules id) := by
  have hbare : Ensures R (do
      (← combatant? id).forM fun combatant => setCombatant id { combatant with block := 0 }) :=
    ensures_combatant? (Ensures.pure hg.flow ()) fun hc h =>
      run_setCombatant_iff.mp h ▸ hg.upkeep (.bared hc)
  have hlast : Ensures R (do
      if (← combat).isLivingEnemy id then
        Resolution.happen rules id .turnEnd none { source := id }
        Resolution.decay rules id .turnEnd
        Resolution.passSilence id) := by
    refine Ensures.combat hg.flow fun combat => ?_
    split
    · exact Ensures.bind hg.flow (hg.happen _ _ _ _) fun _ =>
        Ensures.bind hg.flow (hg.decay _ _) fun _ => hg.passSilence _
    · exact Ensures.pure hg.flow ()
  refine ⟨fun {s a t} h => ?_⟩
  unfold Resolution.enemyTurn at h
  rw [← bind_assoc] at h
  obtain ⟨_, u, hstart, h⟩ := run_bind_iff.mp h
  refine hg.flow.trans (hbare hstart) ?_
  refine (Ensures.bind hg.flow (hg.happen _ _ _ _) fun _ =>
    Ensures.bind hg.flow (hg.decay _ _) fun _ => ⟨fun {s a t} h => ?_⟩).rel h
  obtain ⟨_, _, hcombat, h⟩ := run_bind_iff.mp h
  obtain ⟨rfl, rfl⟩ := run_combat_iff.mp hcombat
  split at h
  · obtain ⟨_, v, hmove, h⟩ := run_bind_iff.mp h
    refine hg.flow.trans ?_ (hlast h)
    generalize hintent : (s.combat.combatant? id).bind (·.intent) = intent at hmove
    cases intent with
    | none => exact (Ensures.pure hg.flow ()).rel hmove
    | some intent =>
        obtain ⟨combatant, hc, hi⟩ := Option.bind_eq_some_iff.mp hintent
        exact hg.makeMove hc hi hmove
  · exact (Ensures.pure hg.flow ()).rel h

/-- **The enemies' turn**, from when it has begun. -/
theorem enemiesTurn_of_run (h : (enemiesTurn rules).run s = .ok (a, t)) : R s.enemiesBegin t := by
  obtain ⟨_, _, hphase, h⟩ := run_bind_iff.mp h
  obtain rfl := run_modifyCombat_iff.mp hphase
  refine (Ensures.combat hg.flow fun combat => Ensures.bind hg.flow
    (Ensures.forM hg.flow fun id _ => Ensures.combat hg.flow fun combat => ?_)
      fun _ => hg.bury).rel h
  split
  · exact hg.enemyTurn id
  · exact Ensures.pure hg.flow ()

/-! ## The player's turn -/

theorem chooseIntent (id : CombatantId) : Ensures R (chooseIntent rules id) := by
  refine ensures_combatant? (Ensures.pure hg.flow ()) fun {s combatant b t} hc h => ?_
  rw [Option.bind_some] at h
  cases he : combatant.enemy with
  | none =>
      rw [he] at h
      exact (Ensures.pure hg.flow ()).rel h
  | some enemy =>
      rw [he, Option.map_some] at h
      dsimp only at h
      split at h
      case h_1 => exact (Ensures.pure hg.flow ()).rel h
      case h_2 template ht =>
        simp only [run_bind_iff, run_draw_iff, run_setCombatant_iff] at h
        obtain ⟨chosen, _, ⟨hchosen, rfl⟩, _, _, rfl, h⟩ := h
        refine hg.flow.trans (hg.upkeep (.declared hc he ht (Prod.ext hchosen rfl))) ?_
        exact (Ensures.forSome hg.flow fun _ => hg.tell (by trivial)).rel h

/-- **The player's turn**: there is a time before and a time after the player gets new energy. -/
theorem openTurn_of_run {first : Bool} (h : (openTurn rules first).run s = .ok (a, t)) :
    ∃ u energy, R s u ∧ u.Refills energy ∧ R (u.playerBegins energy) t := by
  have hcount : Ensures R (onlyIf (!first) nextTurn) := by
    refine Ensures.onlyIf hg.flow ⟨fun {s a t} h => ?_⟩
    unfold nextTurn at h
    simp only [run_bind_iff, run_combat_iff, run_lift_iff, run_modifyCombat_iff] at h
    obtain ⟨_, _, ⟨rfl, rfl⟩, turn, _, ⟨hturn, rfl⟩, rfl⟩ := h
    exact hg.upkeep (.turned hturn)
  obtain ⟨_, u, hnext, h⟩ := run_bind_iff.mp h
  obtain ⟨_, v, hrefresh, h⟩ := run_bind_iff.mp h
  unfold refresh at hrefresh
  simp only [run_bind_iff, run_combat_iff, run_lift_iff, run_modifyCombat_iff] at hrefresh
  obtain ⟨_, _, ⟨rfl, rfl⟩, energy, _, ⟨hsum, rfl⟩, rfl⟩ := hrefresh
  refine ⟨u, energy, hcount hnext, hsum, ?_⟩
  exact (Ensures.combat hg.flow fun _ => Ensures.bind hg.flow (hg.tell (by trivial)) fun _ =>
    Ensures.combat hg.flow fun _ =>
      Ensures.bind hg.flow (Ensures.forM hg.flow fun id _ => hg.chooseIntent id) fun _ =>
        Ensures.bind hg.flow (hg.of_course (drawCards_course _)) fun _ =>
          Ensures.bind hg.flow (hg.happen _ _ _ _) fun _ => hg.decay _ _).rel h

/-! ## Plays -/

theorem charge : Ensures R (charge rules) := by
  refine ⟨fun {s a t} h => ?_⟩
  unfold Resolution.charge at h
  simp only [run_bind_iff, run_combat_iff, run_lift_iff, run_setResources_iff] at h
  obtain ⟨_, _, ⟨rfl, rfl⟩, charged, _, ⟨hadd, rfl⟩, rfl⟩ := h
  exact hg.upkeep (.charged hadd)

/-- What presides over what goes on while a card is in play. -/
theorem whileInPlay {play : Play}
    (hmay : ∀ upgraded, ∀ effect ∈ play.definition.effectsWhen upgraded, may effect) (card : Card)
    (target : Option CombatantId) : Ensures R (whileInPlay rules play card target) :=
  Ensures.bind hg.flow (hg.carryOut (hmay _) (by rfl)) fun _ =>
    Ensures.bind hg.flow (hg.happen _ _ _ _) fun _ =>
      Ensures.forSome hg.flow fun _ => hg.happen _ _ _ _

end Parts

section Calls

variable (hg : Presides rules may R)

include hg

/-- **What presides over the use of the ability.** -/
theorem useAbility {ability : HeroAbility} (hmay : ∀ effect ∈ ability.effects, may effect) :
    Ensures R (Resolution.useAbility rules ability) := by
  refine ⟨fun {s u t} h => ?_⟩
  obtain ⟨_, _, hcombat, h⟩ := run_bind_iff.mp h
  obtain ⟨rfl, rfl⟩ := run_combat_iff.mp hcombat
  obtain ⟨_, _, hset, h⟩ := run_bind_iff.mp h
  obtain rfl := run_setResources_iff.mp hset
  refine hg.flow.trans (hg.upkeep .discharged) ?_
  exact (Ensures.bind hg.flow (hg.tell (by trivial)) fun _ => hg.carryOut hmay (by rfl)).rel h

/-- **What presides over the answer to a selection**, if it is kept when the selection is forgotten
and when new cards that were chosen come into a pile. -/
theorem settleSelection {selection : Selection} (hforget : ∀ s : Scene, R s s.forget)
    (hdeal : ∀ pile, selection.kind = .discover pile →
      ∀ s, ∀ card ∈ selection.candidates, R s (s.deal rules card pile))
    (chosen : List CardUid) : Ensures R (Resolution.settleSelection rules selection chosen) :=
  settleSelection_ensures hg.flow hg.course hforget hdeal chosen

/-! ## Whole turns -/

theorem unlessDecided {m : Resolution Unit} (h : Ensures R m) : Ensures R (unlessDecided m) := by
  refine Ensures.combat hg.flow fun combat => ?_
  split
  · exact h
  · exact Ensures.pure hg.flow ()

variable (henemies : ∀ s : Scene, R s s.enemiesBegin)
  (hplayer : ∀ {s : Scene} {energy : Int}, s.Refills energy → R s (s.playerBegins energy))

include hplayer

theorem openTurn (first : Bool) : Ensures R (openTurn rules first) := by
  refine ⟨fun {s a t} h => ?_⟩
  obtain ⟨u, energy, hbefore, hrefills, hafter⟩ := hg.openTurn_of_run h
  exact hg.flow.trans hbefore (hg.flow.trans (hplayer hrefills) hafter)

/-- **What presides over the first moments of a combat**, if it is kept when the player's turn
begins. -/
theorem openCombat : Ensures R (openCombat rules) :=
  Ensures.bind hg.flow (hg.happen _ _ _ _) fun _ => hg.unlessDecided (hg.openTurn hplayer true)

include henemies

/-- **What presides over everything between two turns of the player**, if it is kept when the
enemies' turn and the player's turn begin. -/
theorem passTurn : Ensures R (passTurn rules) := by
  have henemiesTurn : Ensures R (enemiesTurn rules) :=
    ⟨fun {s a t} h => hg.flow.trans (henemies s) (hg.enemiesTurn_of_run h)⟩
  exact Ensures.bind hg.flow hg.closeTurn fun _ =>
    Ensures.bind hg.flow (hg.unlessDecided henemiesTurn) fun _ =>
      hg.unlessDecided (hg.openTurn hplayer false)

end Calls

end Presides

/-- **What governs the play of a card.** -/
theorem Governs.play {rules : Rules} {may : Effect → Prop} {R : Scene → Scene → Prop}
    (hg : Governs rules may R) {play : Play}
    (hmay : ∀ upgraded, ∀ effect ∈ play.definition.effectsWhen upgraded, may effect)
    (target : Option CombatantId) : Ensures R (Resolution.play rules play target) := by
  refine ⟨fun {s u t} h => ?_⟩
  rcases run_play h with ⟨-, rfl⟩ | ⟨card, piles, v, w, x, -, henters, hin, hend, h⟩
  · exact hg.flow.refl s
  · have hplayed : R s (x.remember card) := hg.played henters
      ((hg.whileInPlay hmay card target).rel hin) (run_endPlay hend)
    obtain ⟨_, _, hremember, hcharge⟩ := run_bind_iff.mp h
    obtain rfl := run_modifyCombat_iff.mp hremember
    exact hg.flow.trans hplayed (hg.charge.rel hcharge)

/-! ## Relations that hold of all steps -/

variable {rules : Rules} {may : Effect → Prop} {R : Scene → Scene → Prop}

/-- A relation that holds of all steps presides over turns, if it holds of what happens at their
boundaries and of the declared moves of enemies. -/
theorem Prevails.presides (h : Prevails rules may R) (hp : rules.content.Permits may)
    (hupkeep : ∀ {s t}, Upkeep rules s t → R s t)
    (hact : ∀ {s : Scene} {id combatant intent ctx a t}, s.combat.combatant? id = some combatant →
      combatant.intent = some intent →
        (Resolution.carryOut rules intent.effects ctx).run (s.report (.intent id intent.name)) =
          .ok (a, t) → R s t) :
    Presides rules may R where
  flow := h.flow
  step hstep := h.step (hstep.mono fun _ => False.elim)
  upkeep := hupkeep
  buried _ := h.blow .buried
  carryOut {_} hmay {ctx} _ := h.carryOut hp hmay ctx
  happen := h.happen hp
  act _ := hact

/-- It governs turns and plays, if it also holds of the cards that come into play and are
remembered. -/
theorem Prevails.governs (h : Prevails rules may R) (hp : rules.content.Permits may)
    (hupkeep : ∀ {s t}, Upkeep rules s t → R s t)
    (henters : ∀ {card cost s t}, Enters card cost s t → R s t)
    (hremember : ∀ (s : Scene) card, R s (s.remember card))
    (hact : ∀ {s : Scene} {id combatant intent ctx a t}, s.combat.combatant? id = some combatant →
      combatant.intent = some intent →
        (Resolution.carryOut rules intent.effects ctx).run (s.report (.intent id intent.name)) =
          .ok (a, t) → R s t) :
    Governs rules may R where
  toPresides := h.presides hp hupkeep hact
  played henter hin hclose :=
    h.flow.trans (henters henter) (h.flow.trans hin
      (h.flow.trans (h.closes hclose) (hremember _ _)))

end CardCombat
