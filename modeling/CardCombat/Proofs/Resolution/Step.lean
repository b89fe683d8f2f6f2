import CardCombat.Proofs.Combat.Combatants
import CardCombat.Proofs.Resolution.Ensures
import CardCombat.Resolve.CardMove
import CardCombat.Resolve.Hit
import CardCombat.Resolve.Resource
import Mathlib.Logic.Relation

/-!
# The steps of a resolution

Whatever effects do to a scene they do in steps of a few kinds. The relation `Step` lists the steps
that cost nobody's life and leave the cards in play where they are; `Blow` lists those that take
health away for good and what is done about the dead; `Opens` and `Closes` say how a card comes into
play and leaves it. Every kind says exactly how the scene is changed, together with the events and
deeds that go with the change.

What holds for every kind of step holds for whole resolutions, since these are nothing but steps one
after another; how the effects are made up of them is said in the modules after this one.

## Main definitions

* `Alteration` -- how a combatant is changed that neither dies nor comes back.
* `Step`, `Blow`, `Opens`, `Closes` -- the kinds of steps.
* `Course` -- any number of plain steps.
-/

namespace CardCombat

namespace Event

/-- The events that tell of what happened before them without a change of their own. -/
def IsNotice : Event → Prop
  | .draw _ | .shuffle _ | .replay _ => True
  | _ => False

/-- The events that tell how a combatant was changed by anything but damage. -/
def IsOfCombatant : Event → Prop
  | .heal .. | .block .. | .barrier .. | .destroyBlock .. | .maxHealth .. | .setHealth ..
  | .intentWeakened .. | .powerApplied .. | .powerRemoved .. | .powerReduced ..
  | .powerSilenced .. | .combo .. => True
  | _ => False

/-- The events that tell what is left of a power of which stacks were taken. -/
def ofTaken (target : CombatantId) (power : PowerId) (taken : Int) : Option Int → List Event
  | none => [.powerRemoved target power]
  | some left => if taken != 0 then [.powerReduced target power left] else []

/-- The card once the change is made that an event tells of. -/
def overlay (event : Event) (card : Card) : Card :=
  match event with
  | .retain _ => { card with retained := true }
  | .upgrade _ => { card with upgraded := true }
  | .costChange _ delta => { card with costModifier := card.costModifier + delta }
  | .cardFlag _ name value =>
      ((CardFlag.all.find? (·.name == name)).map (card.setFlag · value)).getD card
  | .transform _ definition => { card with definition, upgraded := false, costModifier := 0 }
  | _ => card

theorem overlay_cardFlag (card : Card) (uid : CardUid) (flag : CardFlag) (value : Bool) :
    (Event.cardFlag uid flag.name value).overlay card = card.setFlag flag value := by
  cases flag <;> rfl

end Event

/-- A card that is changed is in play or in a pile, and nothing else is changed with it. -/
theorem Combat.same_modifyCard {α : Type} {combat : Combat} {uid : CardUid} {change : Card → Card}
    (view : Combat → α) (hview : ∀ inPlay piles, view { combat with inPlay, piles } = view combat) :
    view (combat.modifyCard uid change) = view combat := by
  unfold modifyCard
  split <;> exact hview _ _

namespace Scene

/-- The pile into which a card comes that is to come into a pile. -/
def landing (rules : Rules) (scene : Scene) (pile : Pile) : Pile :=
  if pile == .hand && decide (rules.config.handLimit ≤ scene.combat.piles.size .hand) then
    .discardPile
  else pile

/-- A card has come into a pile. -/
def arrive (scene : Scene) (card : Card) (pile : Pile) (placement : Placement) : Scene :=
  let (piles, rng) := (scene.combat.piles.put pile card placement).run scene.rng
  ({ scene.withPiles piles with rng } : Scene).record (.landed card.uid pile)

/-- So many numbers of cards have been given out. -/
def issue (scene : Scene) (count : Nat) : Scene :=
  { scene with combat :=
    { scene.combat with nextCardUid := scene.combat.nextCardUid + count } }

/-- A card in play was told where to go. -/
def route (scene : Scene) (uid : CardUid) (before : Option Route) (after : Route) : Scene :=
  ({ scene with combat :=
    scene.combat.modifyInPlay uid fun entry => { entry with route := some after } } : Scene).record
      (.routed uid before after)

/-- A card that was changed has taken the place of the one that its number has meant. -/
def alter (scene : Scene) (uid : CardUid) (card : Card) : Scene :=
  ({ scene with combat := scene.combat.modifyCard uid fun _ => card } : Scene).record
    (.changed uid ((scene.combat.findInPlay? uid).bind (·.route)))

/-- A played card has gone where it had to go. -/
def putAway (scene : Scene) (card : Card) : Route → Scene
  | .discard => (scene.withPiles
      { scene.combat.piles with discardPile := scene.combat.piles.discardPile ++ [card] }).record
        (.landed card.uid .discardPile)
  | .exhaust => ((scene.withPiles
      { scene.combat.piles with exhaustPile := scene.combat.piles.exhaustPile ++ [card] }).record
        (.landed card.uid .exhaustPile)).report (.exhaust card.uid)
  | .banished | .elsewhere => scene

/-- The player was asked to choose. -/
def ask (scene : Scene) (selection : Selection) : Scene :=
  ({ scene with combat := { scene.combat with pending := some selection } } : Scene).report
    (.selectionRequested selection.kind selection.max)

/-- The dead enemies were taken away. -/
def bury (scene : Scene) : Scene :=
  { scene with combat := scene.combat.reap.2
               chronicle := scene.chronicle ++ (scene.combat.reap.1.map Deed.buried).toArray }

end Scene

/-- Any effect at all. -/
def Effect.Any (_ : Effect) : Prop := True

/-- No effect: steps that belong to no effect are made anyway. -/
def Effect.None (_ : Effect) : Prop := False

/-- Whether an effect makes something of the cards that an aim finds as they look when they are
found: copies, or candidates of a selection. -/
def Effect.shows : Effect → Bool
  | .copyCard .. | .banish .. | .tutor .. => true
  | _ => false

/-- Cards of the definition can be made: it is registered, or it is one of those that are made at
random. -/
def Rules.Supplies (rules : Rules) (definition : CardId) : Prop :=
  rules.content.cards.contains definition ∨
    ∃ theme, definition ∈ rules.content.cards.generated theme

/-! ## Combatants -/

/-- How the combatant with a number is changed, with the events that tell of it. Nobody dies of it
and nobody comes back. Where `numbered` holds, that is where no two combatants have one number, only
the living gain and lose powers. What only some effects do is done only if one of them `may` be
carried out. -/
inductive Alteration (rules : Rules) (may : Effect → Prop) (numbered : Prop) (id : CombatantId) :
    Combatant → Combatant → List Event → Prop
  | heal {before after amount overheal healed}
      (hmay : overheal = true → ∃ value target, may (.heal value target true))
      (h : before.heal amount overheal = .ok (healed, after)) :
      Alteration rules may numbered id before after (if 0 < healed then [.heal id healed] else [])
  | block {before gained block} (hg : 0 < gained) (h : Signed.add before.block gained = .ok block) :
      Alteration rules may numbered id before { before with block } [.block id gained]
  | barrier {before gained barrier} (hg : 0 < gained)
      (h : Signed.add before.barrier gained = .ok barrier) :
      Alteration rules may numbered id before { before with barrier } [.barrier id gained]
  | destroyBlock {before} {includeBarrier : Bool} {removed}
      (h : (if includeBarrier then Signed.add before.block before.barrier else pure before.block) =
        .ok removed) :
      Alteration rules may numbered id before
        { before with block := 0, barrier := if includeBarrier then 0 else before.barrier }
        (if 0 < removed then [.destroyBlock id removed] else [])
  | maxHealth {before after delta shown} (hd : delta ≠ 0)
      (h : before.changeMaxHealth delta = .ok after)
      (hs : Signed.sub after.maxHealth before.maxHealth = .ok shown) :
      Alteration rules may numbered id before after
        (if shown != 0 then [.maxHealth id shown] else [])
  | setHealth {before after value} (ha : before.isAlive) (h : before.setHealth value = .ok after)
      (ha' : after.isAlive) :
      Alteration rules may numbered id before after [.setHealth id after.health]
  | weaken {before enemy intent amount weakened} (he : before.enemy = some enemy)
      (hi : enemy.intent = some intent) (hn : 0 < amount)
      (h : Signed.add intent.weakened amount = .ok weakened) :
      Alteration rules may numbered id before
        { before with enemy := some { enemy with intent := some { intent with weakened } } }
        [.intentWeakened id amount]
  | givePower {before after power amount duration applied} (ha : before.isAlive)
      (hp : rules.content.powers.contains power)
      (h : before.applyPower rules.content.powers power amount duration = .ok (applied, after)) :
      Alteration rules may numbered id before after
        (if applied.isSome then [.powerApplied id power amount]
          else if before.powers.contains power then [.powerRemoved id power] else [])
  | leaveStatus {before after status stack applied} (ha : before.isAlive)
      (h : before.applyPower rules.content.powers status stack none = .ok (applied, after)) :
      Alteration rules may numbered id before after
        (if applied.isSome then [.powerApplied id status stack] else [])
  | takePower {before after power} {amount : Option Int} {held taken left}
      (ha : numbered → before.isAlive)
      (hheld : before.powers.get? power = some held)
      (ht : (amount.map (min · held.amount)).getD held.amount = taken)
      (h : before.removePower rules.content.powers power (amount.map fun _ => taken) =
        .ok (left, after)) :
      Alteration rules may numbered id before after
        (Event.ofTaken id power taken left)
  | silence {before power turns} (ha : numbered → before.isAlive) (ht : turns ≠ 0) :
      Alteration rules may numbered id before
        { before with powers := (before.powers.silence power turns).2 }
        ((before.powers.silence power turns).1.map (.powerSilenced id · turns))
  | consume {before} {combo : Combo} (ha : before.isAlive) :
      Alteration rules may numbered id before
        { before with powers := before.powers.remove combo.existing }
        [.combo id combo.name, .powerRemoved id combo.existing]

/-- Damage has reached a combatant. -/
inductive Damages (source target : CombatantId) (outcome : DamageReport) (s : Scene) : Scene → Prop
  | mk {before after amount element piercing stats} (hc : s.combat.combatant? target = some before)
      (h : before.takeDamage amount piercing = .ok (outcome, after))
      (hs : s.stats.countDamage source target outcome.healthLost = .ok stats) :
      Damages source target outcome s
        { (s.setCombatant target after).report (.damage target amount outcome.blocked element) with
          stats }

/-! ## Steps -/

/-- The plain steps of effects that `may` be carried out. -/
inductive Step (rules : Rules) (may : Effect → Prop) (s : Scene) : Scene → Prop
  | drew (rng : Rng) : Step rules may s { s with rng }
  | told {event : Event} (h : event.IsNotice) : Step rules may s (s.report event)
  | acted {owner occasion effects} (h : occasion ≠ .death) :
      Step rules may s (s.record (.acted owner occasion effects))
  -- combatants
  | altered {id before after events} (hc : s.combat.combatant? id = some before)
      (h : Alteration rules may s.combat.Numbered id before after events) :
      Step rules may s ((s.setCombatant id after).tell events)
  | damaged {source target outcome t} (h : Damages source target outcome s t)
      (hk : outcome.killed = false) : Step rules may s t
  -- resources
  | energy {change : Change} {amount energy : Int} {events : List Event}
      (h : change.of s.combat.resources.energy amount = .ok energy)
      (he : energy = s.combat.resources.energy ∧ events = [] ∨
        ∃ delta, energy ≠ s.combat.resources.energy ∧
          Signed.sub energy s.combat.resources.energy = .ok delta ∧
            events = [.energy delta energy])
      (hmay : ∃ value, may (.energy value change) ∧
        ∃ ctx, value.resolve s.combat ctx = .ok amount) :
      Step rules may s ((s.withResources { s.combat.resources with energy }).tell events)
  | energyNextTurn {amount energyNextTurn : Int} (hn : amount ≠ 0)
      (h : Signed.add s.combat.resources.energyNextTurn amount = .ok energyNextTurn)
      (hmay : ∃ value, may (.energyNextTurn value) ∧
        ∃ ctx, value.resolve s.combat ctx = .ok amount) :
      Step rules may s ((s.withResources { s.combat.resources with energyNextTurn }).report
        (.energyNextTurn amount))
  | gold {change : Change} {amount raw delta : Int} {goldEarned : Nat}
      (h : change.of s.gold amount = .ok raw) (hd : Signed.sub (max raw 0) s.gold = .ok delta)
      (he : (if 0 < delta then Unsigned.add 64 s.stats.goldEarned delta.toNat
        else pure s.stats.goldEarned) = .ok goldEarned) :
      Step rules may s
        (({ s with gold := max raw 0, stats := { s.stats with goldEarned } } : Scene).tell
        (if delta != 0 then [.gold delta (max raw 0)] else []))
  -- the draw pile
  | shuffled {piles rng} (h : (s.combat.piles.shuffle .drawPile).run s.rng = (piles, rng)) :
      Step rules may s { s.withPiles piles with rng }
  | reshuffled {moved piles rng} (h : s.combat.piles.reshuffle.run s.rng = ((moved, piles), rng)) :
      Step rules may s (({ s.withPiles piles with rng } : Scene).record (.merged moved))
  | drawn {card piles} (hroom : s.combat.piles.size .hand < rules.config.handLimit)
      (h : s.combat.piles.popDraw? = some (card, piles)) :
      Step rules may s (s.withPiles { piles with hand := piles.hand ++ [card] })
  | milled {card : Card} {piles event} (h : s.combat.piles.popDraw? = some (card, piles))
      (he : event = .mill card.uid ∨ event = .discard card.uid) :
      Step rules may s
        ((s.withPiles { piles with discardPile := piles.discardPile ++ [card] }).report event)
  -- cards in piles
  | moved {uid source pile piles rng event}
      (h : (s.combat.piles.move uid pile .bottom).run s.rng = ((some source, piles), rng))
      (he : pile = .discardPile ∧ event = .discard uid ∨
        pile = .exhaustPile ∧ event = .exhaust uid) :
      Step rules may s
        ((({ s.withPiles piles with rng } : Scene).record (.landed uid pile)).report event)
  | brought {uid source card piles pile placement event}
      (h : s.combat.piles.take? uid = some (source, card, piles))
      (he : event = .putOnDeck uid ∨ ∃ definition, event = .addCard uid definition
        ((s.withPiles piles).landing rules pile))
      (hp : event = .putOnDeck uid → pile = .drawPile) :
      Step rules may s (((s.withPiles piles).arrive card
        ((s.withPiles piles).landing rules pile) placement).report event)
  | removed {uid source card piles} (h : s.combat.piles.take? uid = some (source, card, piles)) :
      Step rules may s (((s.withPiles piles).record (.removed uid)).report (.banish uid))
  -- cards in play
  | sent {uid entry route event} (h : s.combat.findInPlay? uid = some entry)
      (he : route = .discard ∧ event = .discard uid ∨ route = .exhaust ∧ event = .exhaust uid ∨
        route = .banished ∧ event = .banish uid) :
      Step rules may s ((s.route uid entry.route route).report event)
  | recalled {uid entry pile placement event} (h : s.combat.findInPlay? uid = some entry)
      (he : event = .putOnDeck uid ∨ ∃ definition, event = .addCard uid definition
        (s.landing rules pile))
      (hp : event = .putOnDeck uid → pile = .drawPile) :
      Step rules may s (((s.route uid entry.route .elsewhere).arrive entry.card
        (s.landing rules pile) placement).report event)
  -- cards anywhere
  | changed {found card : Card} {event} (hf : s.combat.card? found.uid = some found)
      (hu : card.uid = found.uid)
      (he : event = .retain found.uid ∨ event = .upgrade found.uid ∨
        (∃ delta, event = .costChange found.uid delta) ∨
          (∃ flag value, event = .cardFlag found.uid flag value) ∨
            event = .transform found.uid card.definition)
      (hd : card.definition = found.definition ∨ rules.Supplies card.definition)
      (ho : card = event.overlay found) :
      Step rules may s ((s.alter found.uid card).report event)
  -- new cards
  | issued (count : Nat) : Step rules may s (s.issue count)
  | created {card : Card} {pile placement} (hu : card.uid = ⟨s.combat.nextCardUid⟩)
      (hd : rules.Supplies card.definition ∨ ∃ effect, may effect ∧ effect.shows) :
      Step rules may s (((s.issue 1).arrive card (s.landing rules pile) placement).report
        (.addCard card.uid card.definition (s.landing rules pile)))
  -- selections
  | asked {kind candidates min max} (hk : ∀ pile, kind ≠ .discover pile) (hc : candidates ≠ [])
      (hp : s.combat.pending = none) (hm : 1 ≤ max) (ht : ∀ pile, kind = .tutor pile → max = 1)
      (hs : (∀ card ∈ candidates, ∃ pile, card ∈ s.combat.piles.get pile) ∨
        ∃ effect, may effect ∧ effect.shows) :
      Step rules may s (s.ask (.ofBounds kind candidates min max))
  | offered {pile} {candidates : List Card} (hc : candidates ≠ []) (hp : s.combat.pending = none)
      (hu : candidates.map (·.uid.number) =
        List.range' s.combat.nextCardUid candidates.length)
      (hd : ∀ card ∈ candidates, rules.Supplies card.definition) :
      Step rules may s ((s.issue candidates.length).ask (.ofBounds (.discover pile) candidates 1 1))

theorem Alteration.mono {rules : Rules} {may may' : Effect → Prop} {numbered : Prop}
    {id : CombatantId} {before after : Combatant} {events : List Event}
    (hmay : ∀ effect, may effect → may' effect)
    (h : Alteration rules may numbered id before after events) :
    Alteration rules may' numbered id before after events := by
  cases h with
  | heal hover h => exact .heal (fun ho => (hover ho).imp fun _ => .imp fun _ => hmay _) h
  | block hg h => exact .block hg h
  | barrier hg h => exact .barrier hg h
  | destroyBlock h => exact .destroyBlock h
  | maxHealth hd h hs => exact .maxHealth hd h hs
  | setHealth ha h ha' => exact .setHealth ha h ha'
  | weaken he hi hn h => exact .weaken he hi hn h
  | givePower ha hp h => exact .givePower ha hp h
  | leaveStatus ha h => exact .leaveStatus ha h
  | takePower ha hheld ht h => exact .takePower ha hheld ht h
  | silence ha ht => exact .silence ha ht
  | consume ha => exact .consume ha

/-- More steps are made where more effects may be carried out. -/
theorem Step.mono {rules : Rules} {may may' : Effect → Prop} {s t : Scene}
    (hmay : ∀ effect, may effect → may' effect) (h : Step rules may s t) :
    Step rules may' s t := by
  have hshows (h : ∃ effect, may effect ∧ effect.shows) : ∃ effect, may' effect ∧ effect.shows :=
    h.imp fun effect => .imp_left (hmay effect)
  cases h with
  | drew rng => exact .drew rng
  | told h => exact .told h
  | acted h => exact .acted h
  | altered hc h => exact .altered hc (h.mono hmay)
  | damaged h hk => exact .damaged h hk
  | energy h he hvalue => exact .energy h he (hvalue.imp fun _ => .imp_left (hmay _))
  | energyNextTurn hn h hvalue =>
      exact .energyNextTurn hn h (hvalue.imp fun _ => .imp_left (hmay _))
  | gold h hd he => exact .gold h hd he
  | shuffled h => exact .shuffled h
  | reshuffled h => exact .reshuffled h
  | drawn hroom h => exact .drawn hroom h
  | milled h he => exact .milled h he
  | moved h he => exact .moved h he
  | brought h he hp => exact .brought h he hp
  | removed h => exact .removed h
  | sent h he => exact .sent h he
  | recalled h he hp => exact .recalled h he hp
  | changed hf hu he hd ho => exact .changed hf hu he hd ho
  | issued count => exact .issued count
  | created hu hd => exact .created hu (hd.imp_right hshows)
  | asked hk hc hp hm ht hs => exact .asked hk hc hp hm ht (hs.imp_right hshows)
  | offered hc hp hu hd => exact .offered hc hp hu hd

/-- The steps that take health away for good, and what is done about the dead. -/
inductive Blow (rules : Rules) (s : Scene) : Scene → Prop
  | damaged {source target outcome t} (h : Damages source target outcome s t) : Blow rules s t
  | setHealth {id before after value} (hc : s.combat.combatant? id = some before)
      (h : before.setHealth value = .ok after) :
      Blow rules s ((s.setCombatant id after).report (.setHealth id after.health))
  | executed {id before after} (hc : s.combat.combatant? id = some before)
      (h : before.setHealth 0 = .ok after) :
      Blow rules s ((s.setCombatant id after).report (.execute id))
  | died (id : CombatantId) : Blow rules s ((s.report (.death id)).record (.died id))
  | counted {enemiesKilled} (h : Unsigned.add 64 s.stats.enemiesKilled 1 = .ok enemiesKilled) :
      Blow rules s { s with stats := { s.stats with enemiesKilled } }
  | acted (owner : CombatantId) (occasion : Occasion) (effects : List Effect) :
      Blow rules s (s.record (.acted owner occasion effects))
  | buried : Blow rules s s.bury

/-- A card comes into play off the draw pile. -/
inductive Opens (card : Card) (s : Scene) : Scene → Prop
  | mk {piles rng} (h : s.combat.piles.popDraw? = some (card, piles)) : Opens card s
      (let shown : Scene := ({ s.withPiles piles with rng } : Scene).report (.replay card.uid)
       { shown with combat := shown.combat.pushInPlay card })

/-- The innermost play of a card is over, if there is one. -/
inductive Closes (rules : Rules) (uid : CardUid) (s : Scene) : Scene → Prop
  | nothing (h : s.combat.takeInPlay? uid = none) : Closes rules uid s s
  | mk {played combat} (h : s.combat.takeInPlay? uid = some (played, combat)) :
      Closes rules uid s
        (({ s with combat } : Scene).putAway played.card (Resolution.routeOf rules played))

/-- When the play of a card is over, nothing has changed but what is in play, the piles to which
played cards go, the events, and the chronicle. -/
theorem Closes.scene_eq {rules : Rules} {uid : CardUid} {s t : Scene} (h : Closes rules uid s t) :
    ∃ inPlay discardPile exhaustPile told written, t = { s with
      combat := { s.combat with
        inPlay
        piles := { s.combat.piles with discardPile, exhaustPile }
        events := s.combat.events ++ told }
      chronicle := s.chronicle ++ written } := by
  cases h with
  | nothing => exact ⟨_, _, _, #[], #[], by rw [Array.append_empty, Array.append_empty]⟩
  | @mk played combat h =>
      obtain ⟨entry, -, h⟩ := Option.bind_eq_some_iff.mp h
      obtain ⟨rfl, rfl⟩ := Prod.mk.inj (Option.some.inj h)
      generalize Resolution.routeOf rules entry = route
      cases route with
      | banished | elsewhere =>
          exact ⟨_, _, _, #[], #[], by rw [Array.append_empty, Array.append_empty]; rfl⟩
      | discard =>
          exact ⟨_, _, _, #[], #[.landed entry.card.uid .discardPile],
            by rw [Array.append_empty]; rfl⟩
      | exhaust =>
          exact ⟨_, _, _, #[.exhaust entry.card.uid], #[.landed entry.card.uid .exhaustPile], rfl⟩

/-- When the play of a card is over, nothing has changed in the combat but what is in play, the
piles to which played cards go, and the events. -/
theorem Closes.combat_eq {rules : Rules} {uid : CardUid} {s t : Scene} (h : Closes rules uid s t) :
    ∃ inPlay discardPile exhaustPile events, t.combat =
      { s.combat with
        inPlay, events
        piles := { s.combat.piles with discardPile, exhaustPile } } := by
  obtain ⟨inPlay, discardPile, exhaustPile, told, written, rfl⟩ := h.scene_eq
  exact ⟨inPlay, discardPile, exhaustPile, _, rfl⟩

/-- Any number of plain steps. -/
abbrev Course (rules : Rules) (may : Effect → Prop) : Scene → Scene → Prop :=
  Relation.ReflTransGen (Step rules may)

end CardCombat
