import CardCombat.Form.Definition
import CardCombat.Proofs.Form.Effects
import CardCombat.Proofs.Json.Exact

/-!
# Written content is read back

Content is made of effects and of records of names and numbers. A definition is read back if all
numbers in it fit. Only weights are of single precision: those of random choices, which stand among
effects, and those of the moves of enemies. They are kept if their wider forms stand for the same
numbers.

## Main definitions

* `CardDefinition.Fits` and the like -- the numbers of a definition are in their ranges.

## Main results

* `CardDefinition.denotes` and the like -- a definition of which all numbers fit is read back.
* `content_roundTrips` -- effects, definitions and packs are read back.
-/

namespace CardCombat

open Json

/-! ## Numbers in their ranges -/

def Cost.Fits : Cost → Prop
  | .fixed amount => Signed.Fits amount
  | .x => True

structure CardDefinition.Fits (card : CardDefinition) : Prop where
  cost : card.cost.Fits
  upgradedCost : ∀ cost ∈ card.upgradedCost, cost.Fits
  effects : ∀ effect ∈ card.effects, effect.Fits
  upgradedEffects : ∀ effects ∈ card.upgradedEffects, ∀ effect ∈ effects, effect.Fits

def Trigger.Fits (trigger : Trigger) : Prop := ∀ effect ∈ trigger.effects, effect.Fits

structure Modifier.Fits (modifier : Modifier) : Prop where
  flat : Signed.Fits modifier.flat
  percent : Signed.Fits modifier.percent

structure Modifiers.Fits (modifiers : Modifiers) : Prop where
  outgoing : modifiers.outgoing.Fits
  incoming : modifiers.incoming.Fits
  block : modifiers.block.Fits

structure PowerDefinition.Fits (power : PowerDefinition) : Prop where
  modifiers : power.modifiers.Fits
  triggers : ∀ trigger ∈ power.triggers, trigger.Fits

def EnemyMove.Fits (move : EnemyMove) : Prop := ∀ effect ∈ move.effects, effect.Fits

structure EnemyTemplate.Fits (enemy : EnemyTemplate) : Prop where
  maxHealth : Signed.Fits enemy.maxHealth
  moves : ∀ move ∈ enemy.moves, move.Fits
  startingPowers : ∀ start ∈ enemy.startingPowers, Signed.Fits start.amount

structure HeroAbility.Fits (ability : HeroAbility) : Prop where
  chargeRequired : Unsigned.Fits 32 ability.chargeRequired
  effects : ∀ effect ∈ ability.effects, effect.Fits

structure HeroTemplate.Fits (hero : HeroTemplate) : Prop where
  maxHealth : Signed.Fits hero.maxHealth
  maxEnergy : Signed.Fits hero.maxEnergy
  ability : ∀ ability ∈ hero.ability, ability.Fits

def RelicDefinition.Fits (relic : RelicDefinition) : Prop :=
  ∀ trigger ∈ relic.triggers, trigger.Fits

/-- Every number in a pack is in the range of its quantity. -/
structure Pack.Fits (pack : Pack) : Prop where
  cards : ∀ card ∈ pack.cards, card.Fits
  powers : ∀ power ∈ pack.powers, power.Fits
  enemies : ∀ enemy ∈ pack.enemies, enemy.Fits
  heroes : ∀ hero ∈ pack.heroes, hero.Fits
  relics : ∀ relic ∈ pack.relics, relic.Fits

variable (wide : Float32 → Option Float)

/-! ## Cards -/

theorem Rarity.denotes (rarity : Rarity) : Denotes wide Rarity.ofJson? rarity.toJson rarity :=
  denotes_named (by cases rarity <;> rfl)

theorem Cost.denotes {cost : Cost} (h : cost.Fits) :
    Denotes wide Cost.ofJson? cost.toJson cost := by
  cases cost with
  | fixed amount =>
    have hamount : Signed.Fits amount := h
    refine ⟨by simp [toJson, hamount], ?_⟩
    show (signed? (.int amount)).map fixed = _
    rw [signed?_int h]
    rfl
  | x =>
    have hnamed : Denotes wide (named? false (fun _ => "x") [Cost.x]) (.string "x") .x :=
      denotes_named (by rfl)
    exact hnamed.orElse _

theorem Keywords.denotes (keywords : Keywords) :
    Denotes wide Keywords.ofJson? keywords.toJson keywords := by
  have hbool (value : Bool) := denotes_bool wide value
  refine denotes_record (by simp) ?_
  refine (hbool keywords.exhaust).withDefault rfl ?_
  refine (hbool keywords.retain).withDefault rfl ?_
  refine (hbool keywords.ethereal).withDefault rfl ?_
  refine (hbool keywords.innate).withDefault rfl ?_
  exact (hbool keywords.unplayable).withDefault rfl rfl

variable {wide}

theorem CardDefinition.denotes {card : CardDefinition} (h : card.Fits)
    (hkept : Kept wide card.toJson) : Denotes wide CardDefinition.ofJson? card.toJson card := by
  have htheme := Theme.denotes wide false card.theme
  have hrarity := Rarity.denotes wide card.rarity
  have hcost := Cost.denotes wide h.cost
  have hupgraded : Denotes wide (nullable? Cost.ofJson?) (ofOption Cost.toJson card.upgradedCost)
      card.upgradedCost :=
    denotes_nullable rfl fun cost hmem => Cost.denotes wide (h.upgradedCost cost hmem)
  have hkeywords := Keywords.denotes wide card.keywords
  have heffects := Effect.denotes_list h.effects (hkept.member (show ("effects", _) ∈ _ by simp))
  have hbetter : Denotes wide (nullable? (list? Effect.ofJson?))
      (ofOption (ofList Effect.toJson) card.upgradedEffects) card.upgradedEffects :=
    denotes_nullable rfl fun effects hmem => Effect.denotes_list (h.upgradedEffects effects hmem)
      (hkept.member
        (show ("upgradedEffects", _) ∈ _ by simp [Option.mem_def.mp hmem, ofOption]))
  refine denotes_record ?_ ?_
  · simp [htheme.writable, hrarity.writable, hcost.writable, hupgraded.writable,
      hkeywords.writable, heffects.writable, hbetter.writable]
  · refine (denotes_string wide card.id).required rfl ?_
    refine (denotes_string wide card.name).required rfl ?_
    refine htheme.required rfl ?_
    refine hrarity.withDefault rfl ?_
    refine hcost.required rfl ?_
    refine hupgraded.optional rfl ?_
    refine hkeywords.withDefault rfl ?_
    refine heffects.withDefault rfl ?_
    exact hbetter.optional rfl rfl

/-! ## Powers -/

theorem Occasion.denotes (occasion : Occasion) :
    Denotes wide Occasion.ofJson? occasion.toJson occasion :=
  denotes_named (by cases occasion <;> rfl)

theorem PowerKind.denotes (kind : PowerKind) : Denotes wide PowerKind.ofJson? kind.toJson kind :=
  denotes_named (by cases kind <;> rfl)

theorem Stacking.denotes (stacking : Stacking) :
    Denotes wide Stacking.ofJson? stacking.toJson stacking :=
  denotes_named (by cases stacking <;> rfl)

theorem Boundary.denotes (boundary : Boundary) :
    Denotes wide Boundary.ofJson? boundary.toJson boundary :=
  denotes_named (by cases boundary <;> rfl)

theorem Trigger.denotes {trigger : Trigger} (h : trigger.Fits)
    (hkept : Kept wide trigger.toJson) : Denotes wide Trigger.ofJson? trigger.toJson trigger := by
  have hoccasion : Denotes wide Occasion.ofJson? trigger.occasion.toJson trigger.occasion :=
    Occasion.denotes trigger.occasion
  have heffects := Effect.denotes_list h (hkept.member (show ("effects", _) ∈ _ by simp))
  refine denotes_record ?_ ?_
  · simp [hoccasion.writable, heffects.writable]
  · refine hoccasion.required rfl ?_
    exact heffects.required rfl rfl

theorem Trigger.denotes_list {triggers : List Trigger} (h : ∀ trigger ∈ triggers, trigger.Fits)
    (hkept : Kept wide (ofList Trigger.toJson triggers)) :
    Denotes wide (list? Trigger.ofJson?) (ofList Trigger.toJson triggers) triggers :=
  Json.denotes_list fun trigger hmem => Trigger.denotes (h trigger hmem) (hkept.element hmem)

theorem Decay.denotes (decay : Decay) : Denotes wide Decay.ofJson? decay.toJson decay := by
  have hboundary : Denotes wide Boundary.ofJson? decay.boundary.toJson decay.boundary :=
    Boundary.denotes decay.boundary
  refine denotes_record ?_ ?_
  · simp [hboundary.writable]
  · refine hboundary.required rfl ?_
    exact (denotes_bool wide decay.removeAll).withDefault rfl rfl

/-- A modifier is read from its two members. -/
theorem Modifiers.readModifier_bind {α : Type} {members : Members} {flat percent : String}
    {modifier : Modifier} {rest : Modifier → Option α} {whole : α} (h : modifier.Fits)
    (hflat : members.unique? flat = some (some (.int modifier.flat)))
    (hpercent : members.unique? percent = some (some (.int modifier.percent)))
    (hrest : rest modifier = some whole) :
    (readModifier members flat percent).bind rest = some whole := by
  have hread : readModifier members flat percent = some modifier :=
    (denotes_signed (fun _ => none) h.flat).withDefault hflat
      ((denotes_signed (fun _ => none) h.percent).withDefault hpercent rfl)
  rw [hread]
  exact hrest

theorem Modifiers.denotes {modifiers : Modifiers} (h : modifiers.Fits) :
    Denotes wide Modifiers.ofJson? modifiers.toJson modifiers := by
  refine denotes_record ?_ ?_
  · simp [h.outgoing.flat, h.outgoing.percent, h.incoming.flat, h.incoming.percent, h.block.flat,
      h.block.percent]
  · refine readModifier_bind h.outgoing rfl rfl ?_
    refine readModifier_bind h.incoming rfl rfl ?_
    exact readModifier_bind h.block rfl rfl rfl

theorem PowerDefinition.denotes {power : PowerDefinition} (h : power.Fits)
    (hkept : Kept wide power.toJson) :
    Denotes wide PowerDefinition.ofJson? power.toJson power := by
  have hkind : Denotes wide PowerKind.ofJson? power.kind.toJson power.kind :=
    PowerKind.denotes power.kind
  have hstacking : Denotes wide Stacking.ofJson? power.stacking.toJson power.stacking :=
    Stacking.denotes power.stacking
  have hdecay : Denotes wide (nullable? Decay.ofJson?) (ofOption Decay.toJson power.decay)
      power.decay := denotes_nullable rfl fun decay _ => Decay.denotes decay
  have hmodifiers : Denotes wide Modifiers.ofJson? power.modifiers.toJson power.modifiers :=
    Modifiers.denotes h.modifiers
  have htriggers :=
    Trigger.denotes_list h.triggers (hkept.member (show ("triggers", _) ∈ _ by simp))
  refine denotes_record ?_ ?_
  · simp [hkind.writable, hstacking.writable, hdecay.writable, hmodifiers.writable,
      htriggers.writable]
  · refine (denotes_string wide power.id).required rfl ?_
    refine (denotes_string wide power.name).required rfl ?_
    refine hkind.required rfl ?_
    refine hstacking.required rfl ?_
    refine (denotes_bool wide power.removeAtZero).withDefault rfl ?_
    refine hdecay.optional rfl ?_
    refine hmodifiers.withDefault rfl ?_
    exact htriggers.withDefault rfl rfl

/-! ## Enemies -/

theorem EnemyMove.denotes {move : EnemyMove} (h : move.Fits) (hkept : Kept wide move.toJson) :
    Denotes wide EnemyMove.ofJson? move.toJson move := by
  have hkind := IntentKind.denotes wide move.kind
  have hweight : Denotes wide single? (.single move.weight) move.weight :=
    denotes_single (hkept.member (show ("weight", _) ∈ _ by simp))
  have heffects := Effect.denotes_list h (hkept.member (show ("effects", _) ∈ _ by simp))
  refine denotes_record ?_ ?_
  · simp [hkind.writable, heffects.writable]
  · refine (denotes_string wide move.name).required rfl ?_
    refine hkind.required rfl ?_
    refine hweight.withDefault rfl ?_
    exact heffects.required rfl rfl

theorem StartingPower.denotes {start : StartingPower} (h : Signed.Fits start.amount) :
    Denotes wide StartingPower.ofJson? start.toJson start := by
  refine denotes_record ?_ ?_
  · simp [h]
  · refine (denotes_string wide start.power).required rfl ?_
    exact (denotes_signed wide h).required rfl rfl

theorem EnemyTemplate.denotes {enemy : EnemyTemplate} (h : enemy.Fits)
    (hkept : Kept wide enemy.toJson) : Denotes wide EnemyTemplate.ofJson? enemy.toJson enemy := by
  have hlist : Kept wide (ofList EnemyMove.toJson enemy.moves) :=
    hkept.member (show ("moves", _) ∈ _ by simp)
  have hmoves : Denotes wide (list? EnemyMove.ofJson?) (ofList EnemyMove.toJson enemy.moves)
      enemy.moves :=
    denotes_list fun move hmem => EnemyMove.denotes (h.moves move hmem) (hlist.element hmem)
  have helements (elements : List Element) :
      Denotes wide (list? Element.ofJson?) (ofList Element.toJson elements) elements :=
    denotes_list fun element _ => Element.denotes wide false element
  have hpowers : Denotes wide (list? StartingPower.ofJson?)
      (ofList StartingPower.toJson enemy.startingPowers) enemy.startingPowers :=
    denotes_list fun start hmem => StartingPower.denotes (h.startingPowers start hmem)
  refine denotes_record ?_ ?_
  · simp [h.maxHealth, hmoves.writable, (helements _).writable, hpowers.writable]
  · refine (denotes_string wide enemy.id).required rfl ?_
    refine (denotes_string wide enemy.name).required rfl ?_
    refine (denotes_signed wide h.maxHealth).required rfl ?_
    refine hmoves.required rfl ?_
    refine (helements enemy.vulnerabilities).withDefault rfl ?_
    refine (helements enemy.resistances).withDefault rfl ?_
    exact hpowers.withDefault rfl rfl

/-! ## Heroes and relics -/

theorem HeroAbility.denotes {ability : HeroAbility} (h : ability.Fits)
    (hkept : Kept wide ability.toJson) :
    Denotes wide HeroAbility.ofJson? ability.toJson ability := by
  have hcharge := denotes_unsigned wide (by decide) h.chargeRequired
  have heffects := Effect.denotes_list h.effects (hkept.member (show ("effects", _) ∈ _ by simp))
  refine denotes_record ?_ ?_
  · simp [hcharge.writable, heffects.writable]
  · refine (denotes_string wide ability.name).required rfl ?_
    refine hcharge.required rfl ?_
    exact heffects.required rfl rfl

theorem HeroTemplate.denotes {hero : HeroTemplate} (h : hero.Fits)
    (hkept : Kept wide hero.toJson) : Denotes wide HeroTemplate.ofJson? hero.toJson hero := by
  have hnames (names : List String) : Denotes wide (list? string?) (ofList .string names) names :=
    denotes_list fun name _ => denotes_string wide name
  have hability : Denotes wide (nullable? HeroAbility.ofJson?)
      (ofOption HeroAbility.toJson hero.ability) hero.ability :=
    denotes_nullable rfl fun ability hmem => HeroAbility.denotes (h.ability ability hmem)
      (hkept.member (show ("ability", _) ∈ _ by simp [Option.mem_def.mp hmem, ofOption]))
  refine denotes_record ?_ ?_
  · simp [h.maxHealth, h.maxEnergy, (hnames _).writable, hability.writable]
  · refine (denotes_string wide hero.id).required rfl ?_
    refine (denotes_string wide hero.name).required rfl ?_
    refine (denotes_signed wide h.maxHealth).required rfl ?_
    refine (denotes_signed wide h.maxEnergy).withDefault rfl ?_
    refine (hnames hero.startingDeck).required rfl ?_
    refine (hnames hero.startingRelics).withDefault rfl ?_
    exact hability.optional rfl rfl

theorem RelicDefinition.denotes {relic : RelicDefinition} (h : relic.Fits)
    (hkept : Kept wide relic.toJson) :
    Denotes wide RelicDefinition.ofJson? relic.toJson relic := by
  have htriggers := Trigger.denotes_list h (hkept.member (show ("triggers", _) ∈ _ by simp))
  refine denotes_record ?_ ?_
  · simp [htriggers.writable]
  · refine (denotes_string wide relic.id).required rfl ?_
    refine (denotes_string wide relic.name).required rfl ?_
    refine (denotes_string wide relic.description).withDefault rfl ?_
    exact htriggers.withDefault rfl rfl

/-! ## Packs -/

/-- **A pack is read back** if all numbers in it fit and its weights are kept. -/
theorem Pack.denotes {pack : Pack} (h : pack.Fits) (hkept : Kept wide pack.toJson) :
    Denotes wide Pack.ofJson? pack.toJson pack := by
  -- Every kind of definition has a list of its own in the pack, which is read element by element.
  have hlist {α : Type} {write : α → Json} {read : Json → Option α} {fits : α → Prop}
      {values : List α}
      (hdenotes : ∀ {value : α}, fits value → Kept wide (write value) →
        Denotes wide read (write value) value)
      (hfits : ∀ value ∈ values, fits value)
      (hmember : Kept wide (ofList write values)) :
      Denotes wide (list? read) (ofList write values) values :=
    denotes_list fun value hmem => hdenotes (hfits value hmem) (hmember.element hmem)
  have hcards := hlist CardDefinition.denotes h.cards
    (hkept.member (show ("cards", _) ∈ _ by simp))
  have hpowers := hlist PowerDefinition.denotes h.powers
    (hkept.member (show ("powers", _) ∈ _ by simp))
  have henemies := hlist EnemyTemplate.denotes h.enemies
    (hkept.member (show ("enemies", _) ∈ _ by simp))
  have hheroes := hlist HeroTemplate.denotes h.heroes
    (hkept.member (show ("heroes", _) ∈ _ by simp))
  have hrelics := hlist RelicDefinition.denotes h.relics
    (hkept.member (show ("relics", _) ∈ _ by simp))
  refine denotes_record ?_ ?_
  · simp [hcards.writable, hpowers.writable, henemies.writable, hheroes.writable,
      hrelics.writable]
  · refine hcards.withDefault rfl ?_
    refine hpowers.withDefault rfl ?_
    refine henemies.withDefault rfl ?_
    refine hheroes.withDefault rfl ?_
    exact hrelics.withDefault rfl rfl

/-- **Content is read back**: an effect, however deeply other effects are nested in it, every
definition, and every pack of them, as far as their numbers are in the ranges of their quantities.
What is read is the same as it was, from the written form as it is, from one whose numbers of single
precision have become wider and stand for the same numbers, and from a text that is not nested too
deeply and whose decimal numbers stand for what was written. -/
theorem content_roundTrips :
    (∀ effect : Effect, effect.Fits → RoundTrips Effect.ofJson? effect.toJson effect) ∧
      (∀ card : CardDefinition, card.Fits →
        RoundTrips CardDefinition.ofJson? card.toJson card) ∧
      (∀ power : PowerDefinition, power.Fits →
        RoundTrips PowerDefinition.ofJson? power.toJson power) ∧
      (∀ enemy : EnemyTemplate, enemy.Fits →
        RoundTrips EnemyTemplate.ofJson? enemy.toJson enemy) ∧
      (∀ hero : HeroTemplate, hero.Fits → RoundTrips HeroTemplate.ofJson? hero.toJson hero) ∧
      (∀ relic : RelicDefinition, relic.Fits →
        RoundTrips RelicDefinition.ofJson? relic.toJson relic) ∧
      ∀ pack : Pack, pack.Fits → RoundTrips Pack.ofJson? pack.toJson pack :=
  ⟨fun _ h => .of_denotes fun _ hkept => Effect.denotes h hkept,
    fun _ h => .of_denotes fun _ hkept => CardDefinition.denotes h hkept,
    fun _ h => .of_denotes fun _ hkept => PowerDefinition.denotes h hkept,
    fun _ h => .of_denotes fun _ hkept => EnemyTemplate.denotes h hkept,
    fun _ h => .of_denotes fun _ hkept => HeroTemplate.denotes h hkept,
    fun _ h => .of_denotes fun _ hkept => RelicDefinition.denotes h hkept,
    fun _ h => .of_denotes fun _ hkept => Pack.denotes h hkept⟩

/-! ## A card with nested effects -/

/-- Who is not strong braces, and who is draws for every card in the hand. -/
def feintEffect : Effect :=
  .conditional (.not (.hasPower .self "strength" 1)) [.block (.fixed 3) .self]
    [.forEach (.card .hand) [.draw (.fixed 1)]]

/-- A pack with that card, an enemy and a hero. -/
def feintPack : Pack where
  cards :=
    [{ id := "feint", name := "Feint", theme := .skill, cost := .x, effects := [feintEffect]
       upgradedCost := some (.fixed 1) }]
  enemies := [{ id := "dummy", name := "Dummy", maxHealth := 8, moves := [] }]
  heroes := [{ id := "fencer", name := "Fencer", maxHealth := 10, startingDeck := ["feint"] }]

theorem feintEffect_fits : feintEffect.Fits := by
  have hblock : (Effect.block (.fixed 3) .self).Fits := .mk (by decide : Signed.Fits 3) nofun
  have hdraw : (Effect.draw (.fixed 1)).Fits := .mk (by decide : Signed.Fits 1) nofun
  have heach : (Effect.forEach (.card .hand) [.draw (.fixed 1)]).Fits := by
    refine .mk trivial fun inner h => ?_
    cases h with
    | forEach hmem => exact List.mem_singleton.mp hmem ▸ hdraw
  refine .mk (.not (.hasPower (by decide))) fun inner h => ?_
  cases h with
  | yes hmem => exact List.mem_singleton.mp hmem ▸ hblock
  | no hmem => exact List.mem_singleton.mp hmem ▸ heach

theorem feintPack_fits : feintPack.Fits where
  cards := List.forall_mem_singleton.mpr
    ⟨trivial, fun _ h => Option.some.inj h ▸ (by decide : Signed.Fits 1),
      List.forall_mem_singleton.mpr feintEffect_fits, nofun⟩
  powers := List.forall_mem_nil _
  enemies := List.forall_mem_singleton.mpr
    ⟨by decide, List.forall_mem_nil _, List.forall_mem_nil _⟩
  heroes := List.forall_mem_singleton.mpr ⟨by decide, by decide, nofun⟩
  relics := List.forall_mem_nil _

/-- The pack is read back from its text. -/
theorem content_roundTrips_feint : feintPack.Fits ∧
    (parse? feintPack.toJson.text).bind Pack.ofJson? = some feintPack := by
  obtain ⟨-, -, -, -, -, -, hpack⟩ := content_roundTrips
  exact ⟨feintPack_fits, (hpack feintPack feintPack_fits).text (by decide +kernel)
    (.of_whole (by decide +kernel))⟩

end CardCombat
