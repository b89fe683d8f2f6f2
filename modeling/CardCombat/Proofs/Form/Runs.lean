import CardCombat.Proofs.Form.Effects
import CardCombat.Proofs.Form.Events

/-!
# Written runs are read back

A record is read back if its parts are. Weights of random choices are the only numbers of single
precision in a run; they stand in the effects of intents, so the records that hold intents ask for
them to be kept.

## Main results

* `Run.denotes_without_rng` -- a run is read back, but for its generator.
* `Rng.read_toJson` -- a generator is read back.
-/

namespace CardCombat

open Json

variable (wide : Float32 → Option Float)

/-! ## Cards -/

theorem Card.denotes {card : Card} (h : card.Fits) :
    Denotes wide Card.ofJson? card.toJson card := by
  have huid := CardUid.denotes wide h.uid
  refine denotes_record ?_ ?_
  · simp [huid.writable, h.costModifier]
  · refine huid.required rfl ?_
    refine (denotes_string wide card.definition).required rfl ?_
    refine (denotes_bool wide card.upgraded).withDefault rfl ?_
    refine (denotes_bool wide card.retained).withDefault rfl ?_
    refine (denotes_bool wide card.ethereal).withDefault rfl ?_
    refine (denotes_bool wide card.innate).withDefault rfl ?_
    refine (denotes_bool wide card.unplayable).withDefault rfl ?_
    exact (denotes_signed wide h.costModifier).withDefault rfl rfl

theorem Card.denotes_list {cards : List Card} (h : ∀ card ∈ cards, card.Fits) :
    Denotes wide (list? Card.ofJson?) (ofList Card.toJson cards) cards :=
  Json.denotes_list fun card hmem => Card.denotes wide (h card hmem)

theorem Piles.denotes {piles : Piles} (h : piles.Fits) :
    Denotes wide Piles.ofJson? piles.toJson piles := by
  have hhand := Card.denotes_list wide h.hand
  have hdraw := Card.denotes_list wide h.drawPile
  have hdiscard := Card.denotes_list wide h.discardPile
  have hexhaust := Card.denotes_list wide h.exhaustPile
  refine denotes_record ?_ ?_
  · simp [hhand.writable, hdraw.writable, hdiscard.writable, hexhaust.writable]
  · refine hhand.required rfl ?_
    refine hdraw.required rfl ?_
    refine hdiscard.required rfl ?_
    exact hexhaust.required rfl rfl

/-! ## Combatants -/

theorem Power.denotes {power : Power} (h : power.Fits) :
    Denotes wide Power.ofJson? power.toJson power := by
  have hduration := h.duration.denotes wide
  have hsilenced := denotes_unsigned wide (by decide) h.silencedTurns
  refine denotes_record ?_ ?_
  · simp [h.amount, hduration.writable, hsilenced.writable]
  · refine (denotes_string wide power.id).required rfl ?_
    refine (denotes_signed wide h.amount).required rfl ?_
    refine hduration.optional rfl ?_
    exact hsilenced.withDefault rfl rfl

theorem Intent.denotes {intent : Intent} (h : intent.Fits) (hkept : Kept wide intent.toJson) :
    Denotes wide Intent.ofJson? intent.toJson intent := by
  have hkind := IntentKind.denotes wide intent.kind
  have heffects := Effect.denotes_list h.effects (hkept.member (show ("effects", _) ∈ _ by simp))
  have hmove := denotes_unsigned wide (by decide) h.moveIndex
  refine denotes_record ?_ ?_
  · simp [hmove.writable, hkind.writable, heffects.writable, h.weakened]
  · refine hmove.required rfl ?_
    refine (denotes_string wide intent.name).required rfl ?_
    refine hkind.required rfl ?_
    refine heffects.required rfl ?_
    exact (denotes_signed wide h.weakened).required rfl rfl

theorem EnemyRole.denotes {role : EnemyRole} (h : role.Fits) (hkept : Kept wide role.toJson) :
    Denotes wide EnemyRole.ofJson? role.toJson role := by
  have helements (elements : List Element) :
      Denotes wide (list? Element.ofJson?) (ofList Element.toJson elements) elements :=
    denotes_list fun element _ => Element.denotes wide false element
  have hintent : Denotes wide (nullable? Intent.ofJson?) (ofOption Intent.toJson role.intent)
      role.intent :=
    denotes_nullable rfl fun intent hmem => Intent.denotes wide (h.intent intent hmem)
      (hkept.member (show ("intent", _) ∈ _ by simp [Option.mem_def.mp hmem, ofOption]))
  have hlast := h.lastMove.denotes wide (by decide)
  refine denotes_record ?_ ?_
  · simp [(helements _).writable, hintent.writable, hlast.writable]
  · refine (denotes_string wide role.template).required rfl ?_
    refine (helements role.vulnerabilities).required rfl ?_
    refine (helements role.resistances).required rfl ?_
    refine hintent.optional rfl ?_
    exact hlast.optional rfl rfl

theorem Combatant.denotes {combatant : Combatant} (h : combatant.Fits)
    (hkept : Kept wide combatant.toJson) :
    Denotes wide Combatant.ofJson? combatant.toJson combatant := by
  have hid := CombatantId.denotes wide h.id
  have hpowers : Denotes wide (list? Power.ofJson?) (ofList Power.toJson combatant.powers)
      combatant.powers := denotes_list fun power hmem => Power.denotes wide (h.powers power hmem)
  have henemy : Denotes wide (nullable? EnemyRole.ofJson?)
      (ofOption EnemyRole.toJson combatant.enemy) combatant.enemy :=
    denotes_nullable rfl fun role hmem => EnemyRole.denotes wide (h.enemy role hmem)
      (hkept.member (show ("enemy", _) ∈ _ by simp [Option.mem_def.mp hmem, ofOption]))
  refine denotes_record ?_ ?_
  · simp [hid.writable, h.health, h.maxHealth, h.block, h.barrier, hpowers.writable,
      henemy.writable]
  · refine hid.required rfl ?_
    refine (denotes_string wide combatant.name).required rfl ?_
    refine (denotes_signed wide h.health).required rfl ?_
    refine (denotes_signed wide h.maxHealth).required rfl ?_
    refine (denotes_signed wide h.block).required rfl ?_
    refine (denotes_signed wide h.barrier).required rfl ?_
    refine hpowers.required rfl ?_
    exact henemy.optional rfl rfl

/-! ## Combats -/

theorem Resources.denotes {resources : Resources} (h : resources.Fits) :
    Denotes wide Resources.ofJson? resources.toJson resources := by
  have hcharge := denotes_unsigned wide (by decide) h.abilityCharge
  have hneeded := denotes_unsigned wide (by decide) h.abilityChargeRequired
  refine denotes_record ?_ ?_
  · simp [h.energy, h.maxEnergy, h.energyNextTurn, hcharge.writable, hneeded.writable]
  · refine (denotes_signed wide h.energy).required rfl ?_
    refine (denotes_signed wide h.maxEnergy).required rfl ?_
    refine (denotes_signed wide h.energyNextTurn).required rfl ?_
    refine hcharge.required rfl ?_
    refine hneeded.required rfl ?_
    exact (denotes_bool wide resources.abilityUsedThisTurn).required rfl rfl

theorem Selection.denotes {selection : Selection} (h : selection.Fits) :
    Denotes wide Selection.ofJson? selection.toJson selection := by
  have hkind := SelectionKind.denotes wide false selection.kind
  have hcandidates := Card.denotes_list wide h.candidates
  have hmin := denotes_unsigned wide (by decide) h.min
  have hmax := denotes_unsigned wide (by decide) h.max
  refine denotes_record ?_ ?_
  · simp [hkind.writable, hcandidates.writable, hmin.writable, hmax.writable]
  · refine hkind.required rfl ?_
    refine hcandidates.required rfl ?_
    refine hmin.required rfl ?_
    exact hmax.required rfl rfl

theorem ActiveCard.denotes {entry : ActiveCard} (h : entry.card.Fits) :
    Denotes wide ActiveCard.ofJson? entry.toJson entry := by
  have hcard := Card.denotes wide h
  have hroute : Denotes wide (nullable? Route.ofJson?) (ofOption Route.toJson entry.route)
      entry.route := denotes_nullable rfl fun route _ => Route.denotes wide route
  refine denotes_record ?_ ?_
  · simp [hcard.writable, hroute.writable]
  · refine hcard.required rfl ?_
    exact hroute.optional rfl rfl

theorem Combat.denotes {combat : Combat} (h : combat.Fits) (hkept : Kept wide combat.toJson) :
    Denotes wide Combat.ofJson? combat.toJson combat := by
  have hphase := Phase.denotes wide combat.phase
  have hplayer := Combatant.denotes wide h.player (hkept.member (show ("player", _) ∈ _ by simp))
  have hresources := Resources.denotes wide h.resources
  have hlist : Kept wide (ofList Combatant.toJson combat.enemies) :=
    hkept.member (show ("enemies", _) ∈ _ by simp)
  have henemies : Denotes wide (list? Combatant.ofJson?) (ofList Combatant.toJson combat.enemies)
      combat.enemies :=
    denotes_list fun enemy hmem =>
      Combatant.denotes wide (h.enemies enemy hmem) (hlist.element hmem)
  have hpiles := Piles.denotes wide h.piles
  have hlast : Denotes wide (nullable? Card.ofJson?) (ofOption Card.toJson combat.lastPlayed)
      combat.lastPlayed :=
    denotes_nullable rfl fun card hmem => Card.denotes wide (h.lastPlayed card hmem)
  have hinPlay : Denotes wide (list? ActiveCard.ofJson?) (ofList ActiveCard.toJson combat.inPlay)
      combat.inPlay := denotes_list fun entry hmem => ActiveCard.denotes wide (h.inPlay entry hmem)
  have hpending : Denotes wide (nullable? Selection.ofJson?)
      (ofOption Selection.toJson combat.pending) combat.pending :=
    denotes_nullable rfl fun selection hmem => Selection.denotes wide (h.pending selection hmem)
  have hevents : Denotes wide (list? Event.ofJson?) (ofList Event.toJson combat.events.toList)
      combat.events.toList :=
    denotes_list fun event hmem => Event.denotes wide (h.events event hmem)
  have hturn := denotes_unsigned wide (by decide) h.turn
  have hplayed := denotes_unsigned wide (by decide) h.cardsPlayedThisTurn
  have henemyId := denotes_unsigned wide (by decide) h.nextEnemyId
  have hcardUid := denotes_unsigned wide (by decide) h.nextCardUid
  refine denotes_record ?_ ?_
  · simp [hphase.writable, hturn.writable, hplayer.writable, hresources.writable,
      henemies.writable, hpiles.writable, hplayed.writable, hlast.writable, hinPlay.writable,
      hpending.writable, hevents.writable, henemyId.writable, hcardUid.writable]
  · refine hphase.required rfl ?_
    refine hturn.required rfl ?_
    refine hplayer.required rfl ?_
    refine hresources.required rfl ?_
    refine henemies.required rfl ?_
    refine hpiles.required rfl ?_
    refine hplayed.required rfl ?_
    refine hlast.optional rfl ?_
    refine hinPlay.required rfl ?_
    refine hpending.optional rfl ?_
    refine (denotes_bool wide combat.locked).required rfl ?_
    refine hevents.required rfl ?_
    refine henemyId.required rfl ?_
    exact hcardUid.required rfl rfl

/-! ## Runs -/

theorem Stats.denotes {stats : Stats} (h : stats.Fits) :
    Denotes wide Stats.ofJson? stats.toJson stats := by
  have hcount {n : Nat} (h : Unsigned.Fits 64 n) := denotes_unsigned wide (by decide) h
  refine denotes_record ?_ ?_
  · simp [(hcount h.damageDealt).writable, (hcount h.damageTaken).writable,
      (hcount h.cardsPlayed).writable, (hcount h.enemiesKilled).writable,
      (hcount h.goldEarned).writable, (hcount h.combatsWon).writable]
  · refine (hcount h.damageDealt).required rfl ?_
    refine (hcount h.damageTaken).required rfl ?_
    refine (hcount h.cardsPlayed).required rfl ?_
    refine (hcount h.enemiesKilled).required rfl ?_
    refine (hcount h.goldEarned).required rfl ?_
    exact (hcount h.combatsWon).required rfl rfl

/-- **A run is read back**, but for its generator and for what was written down in the last
resolution. -/
theorem Run.denotes_without_rng {run : Run} (h : run.Fits) (hkept : Kept wide run.toJson) :
    Denotes wide Run.ofJson? run.toJson { run with rng := default, chronicle := #[] } := by
  have hdeck := Card.denotes_list wide h.deck
  have hrelics : Denotes wide (list? string?) (ofList .string run.relics) run.relics :=
    denotes_list fun relic _ => denotes_string wide relic
  have hstats := Stats.denotes wide h.stats
  have hcombat : Denotes wide (nullable? Combat.ofJson?) (ofOption Combat.toJson run.combat)
      run.combat :=
    denotes_nullable rfl fun combat hmem => Combat.denotes wide (h.combat combat hmem)
      (hkept.member (show ("combat", _) ∈ _ by simp [Option.mem_def.mp hmem, ofOption]))
  have hfloor := denotes_unsigned wide (by decide) h.floor
  refine denotes_record ?_ ?_
  · simp [h.health, h.maxHealth, h.gold, hdeck.writable, hrelics.writable,
      hfloor.writable, hstats.writable, hcombat.writable]
  · refine (denotes_string wide run.hero).required rfl ?_
    refine (denotes_signed wide h.health).required rfl ?_
    refine (denotes_signed wide h.maxHealth).required rfl ?_
    refine (denotes_signed wide h.gold).required rfl ?_
    refine hdeck.required rfl ?_
    refine hrelics.required rfl ?_
    refine hfloor.required rfl ?_
    refine hstats.required rfl ?_
    exact hcombat.optional rfl rfl

/-- **A generator is read back**, at the place of its stream where it was. -/
theorem Rng.read_toJson {rng : Rng} (h : rng.position < Keystream.period) :
    Rng.ofJson? rng.toJson = some rng := by
  have hseed : Unsigned.Fits 64 rng.seed.toNat := rng.seed.toNat_lt
  have hposition : Unsigned.Fits 128 rng.position := Nat.lt_trans h (by decide)
  rw [toJson, ofJson?]
  refine record?_bind ?_
  refine Members.required_bind rfl (unsigned?_ofNat hseed) ?_
  refine Members.required_bind rfl (unsigned?_ofNat hposition) ?_
  rw [show rng.seed.toNat.toUInt64 = rng.seed from UInt64.ofNat_toNat]
  rfl

end CardCombat
