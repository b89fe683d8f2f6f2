import CardCombat.Proofs.Content.Reference
import CardCombat.Proofs.Content.Registration

/-!
# Which packs are accepted

Content is made from a pack if the cards of the pack have different names and all that is checked
is there, among the definitions of the pack and the built-in powers. What is checked is less than
what the pack mentions: a condition may ask for a power that nobody knows, the triggers of powers
are not looked at, and neither is a definition that is replaced by a later one of the same name.

## Main results

* `Content.ofPack_accepts_iff` -- acceptance, said of the pack alone.
* `Content.ofPack_exact_iff` -- the packs for which acceptance says that nothing is missing.
-/

namespace CardCombat

/-- An effect mentions what it names and the powers that it asks for. -/
def Effect.Mentions (effect : Effect) (mention : Mention) : Prop :=
  effect.Names mention ∨ ∃ power, mention = .power power ∧ effect.Asks power

/-- The kinds of definitions that carry effects. -/
inductive Owner where
  | card
  | enemy
  | hero
  | relic
  | power
  deriving Repr, DecidableEq

namespace Pack

/-- The lists of effects in a pack. -/
inductive Carries (pack : Pack) : Owner → List Effect → Prop
  | plain {card} (h : card ∈ pack.cards) : Carries pack .card card.effects
  | upgraded {card} (h : card ∈ pack.cards) : Carries pack .card (card.upgradedEffects.getD [])
  | move {enemy move} (h : enemy ∈ pack.enemies) (hm : move ∈ enemy.moves) :
      Carries pack .enemy move.effects
  | ability {hero ability} (h : hero ∈ pack.heroes) (ha : hero.ability = some ability) :
      Carries pack .hero ability.effects
  | relic {relic trigger} (h : relic ∈ pack.relics) (ht : trigger ∈ relic.triggers) :
      Carries pack .relic trigger.effects
  | power {power trigger} (h : power ∈ pack.powers) (ht : trigger ∈ power.triggers) :
      Carries pack .power trigger.effects

/-- What enemies and heroes begin with. -/
inductive BeginsWith (pack : Pack) : Mention → Prop
  | power {enemy start} (h : enemy ∈ pack.enemies) (hs : start ∈ enemy.startingPowers) :
      BeginsWith pack (.power start.power)
  | card {hero card} (h : hero ∈ pack.heroes) (hc : card ∈ hero.startingDeck) :
      BeginsWith pack (.card card)
  | relic {hero relic} (h : hero ∈ pack.heroes) (hr : relic ∈ hero.startingRelics) :
      BeginsWith pack (.relic relic)

/-- Everything that a pack refers to, wherever it does so. -/
inductive Mentions (pack : Pack) (mention : Mention) : Prop
  | start (h : pack.BeginsWith mention)
  | effect {owner effects effect} (h : pack.Carries owner effects) (he : effect ∈ effects)
      (hm : effect.Mentions mention)

/-- The pack without the definitions that are replaced by later ones. -/
def standing (pack : Pack) : Pack where
  cards := pack.cards
  powers := CardCombat.standing (·.id) pack.powers
  enemies := CardCombat.standing (·.id) pack.enemies
  heroes := CardCombat.standing (·.id) pack.heroes
  relics := CardCombat.standing (·.id) pack.relics

/-- What is checked of a pack: what its effects name, but not what they ask for, and that only of
definitions that stand and are no powers. -/
inductive Checked (pack : Pack) (mention : Mention) : Prop
  | start (h : pack.standing.BeginsWith mention)
  | effect {owner effects effect} (h : pack.standing.Carries owner effects) (ho : owner ≠ .power)
      (he : effect ∈ effects) (hn : effect.Names mention)

/-- What is referred to and not checked: what a condition asks for, what the triggers of powers
name, and what only definitions say that are replaced. -/
inductive Overlooked (pack : Pack) : Mention → Prop
  | condition {owner effects effect power} (h : pack.Carries owner effects) (he : effect ∈ effects)
      (ha : effect.Asks power) : Overlooked pack (.power power)
  | trigger {effects effect mention} (h : pack.Carries .power effects) (he : effect ∈ effects)
      (hn : effect.Names mention) : Overlooked pack mention
  | replaced {mention} (h : pack.Mentions mention) (hs : ¬pack.standing.Mentions mention) :
      Overlooked pack mention

/-- What is there when a pack has joined the built-in powers. -/
def Registers (pack : Pack) : Mention → Prop
  | .card card => card ∈ pack.cards.map (·.id)
  | .power power => power ∈ (PowerDefinition.builtin ++ pack.powers).map (·.id)
  | .relic relic => relic ∈ pack.relics.map (·.id)

/-- The pack is all that it needs: no two cards have one name, and nothing it refers to is
missing. -/
def Complete (pack : Pack) : Prop :=
  (pack.cards.map (·.id)).Nodup ∧ ∀ mention, pack.Mentions mention → pack.Registers mention

variable {pack : Pack} {mention : Mention}

theorem BeginsWith.of_standing (h : pack.standing.BeginsWith mention) :
    pack.BeginsWith mention := by
  cases h with
  | power he hs => exact .power (mem_of_mem_standing he) hs
  | card hh hc => exact .card (mem_of_mem_standing hh) hc
  | relic hh hr => exact .relic (mem_of_mem_standing hh) hr

theorem Carries.of_standing {owner : Owner} {effects : List Effect}
    (h : pack.standing.Carries owner effects) : pack.Carries owner effects := by
  cases h with
  | plain h => exact .plain h
  | upgraded h => exact .upgraded h
  | move h hm => exact .move (mem_of_mem_standing h) hm
  | ability h ha => exact .ability (mem_of_mem_standing h) ha
  | relic h ht => exact .relic (mem_of_mem_standing h) ht
  | power h ht => exact .power (mem_of_mem_standing h) ht

/-- All that is checked is referred to. -/
theorem Checked.mentions (h : pack.Checked mention) : pack.Mentions mention := by
  cases h with
  | start h => exact .start h.of_standing
  | effect h _ he hn => exact .effect h.of_standing he (.inl hn)

/-- Whatever a pack refers to is either checked or overlooked. -/
theorem mentions_iff : pack.Mentions mention ↔ pack.Checked mention ∨ pack.Overlooked mention := by
  constructor
  · intro h
    by_cases hs : pack.standing.Mentions mention
    · cases hs with
      | start hs => exact .inl (.start hs)
      | @effect owner effects effect hc he hm =>
          rcases hm with hn | ⟨power, rfl, ha⟩
          · by_cases ho : owner = .power
            · subst ho
              exact .inr (.trigger hc.of_standing he hn)
            · exact .inl (.effect hc ho he hn)
          · exact .inr (.condition hc.of_standing he ha)
    · exact .inr (.replaced h hs)
  · rintro (hc | ho)
    · exact hc.mentions
    · cases ho with
      | condition h he ha => exact .effect h he (.inr ⟨_, rfl, ha⟩)
      | trigger h he hn => exact .effect h he (.inl hn)
      | replaced h => exact h

end Pack

namespace Content

/-! ## Adding a pack -/

/-- The content with cards behind those that are there, each under its name. -/
def withCards (content : Content) (cards : List CardDefinition) : Content :=
  { content with cards := ⟨content.cards.entries ++ cards.map fun card => (card.id, card)⟩ }

/-- Adding cards succeeds when all their names are new and different, and puts them behind. -/
theorem addCards_eq_none {content result : Content} {cards : List CardDefinition} :
    content.addCards cards = (result, none) ↔
      (∀ card ∈ cards, ¬content.cards.contains card.id) ∧ (cards.map (·.id)).Nodup ∧
        result = content.withCards cards := by
  induction cards generalizing content with
  | nil =>
      simp only [addCards, withCards, List.map_nil, List.append_nil, Prod.mk.injEq, and_true]
      exact ⟨fun h => ⟨by simp, List.nodup_nil, h.symm⟩, fun h => h.2.2.symm⟩
  | cons card cards ih =>
      unfold addCards addCard Catalog.register?
      by_cases hcard : content.cards.contains card.id
      · simp [hcard]
      · have hwith : (Content.withCards { content with
            cards := content.cards.put card.id card } cards) =
          content.withCards (card :: cards) := by
          simp [withCards, Catalog.entries_put hcard]
        have hcontains (key : String) : (content.cards.put card.id card).contains key ↔
            content.cards.contains key ∨ key = card.id := by
          rw [Catalog.contains, Catalog.find?_put]
          by_cases hkey : key = card.id <;> simp [hkey, Catalog.contains]
        simp only [hcard, Bool.false_eq_true, if_false, ih, hwith, hcontains, List.forall_mem_cons,
          List.map_cons, List.nodup_cons, List.mem_map, not_or, not_exists, not_and]
        grind

/-- The content of a pack: the built-in powers, and the definitions of the pack. -/
def filledFrom (pack : Pack) : Content where
  cards := ⟨pack.cards.map fun card => (card.id, card)⟩
  powers := Catalog.builtinPowers.putAll (·.id) pack.powers
  enemies := Catalog.empty.putAll (·.id) pack.enemies
  heroes := Catalog.empty.putAll (·.id) pack.heroes
  relics := Catalog.empty.putAll (·.id) pack.relics

/-- Behind its cards a pack registers its other definitions, one after another. -/
theorem addRest_eq (content : Content) (pack : Pack) : content.addRest pack =
    { content with
      powers := content.powers.putAll (·.id) pack.powers
      enemies := content.enemies.putAll (·.id) pack.enemies
      heroes := content.heroes.putAll (·.id) pack.heroes
      relics := content.relics.putAll (·.id) pack.relics } := by
  unfold addRest Catalog.putAll
  have hpowers (content : Content) : pack.powers.foldl addPower content = { content with
      powers := pack.powers.foldl (fun powers power => powers.put power.id power) content.powers } :=
    List.foldl_hom (fun powers => { content with powers }) fun _ _ => rfl
  have henemies (content : Content) : pack.enemies.foldl addEnemy content = { content with
      enemies := pack.enemies.foldl (fun enemies enemy => enemies.put enemy.id enemy)
        content.enemies } :=
    List.foldl_hom (fun enemies => { content with enemies }) fun _ _ => rfl
  have hheroes (content : Content) : pack.heroes.foldl addHero content = { content with
      heroes := pack.heroes.foldl (fun heroes hero => heroes.put hero.id hero) content.heroes } :=
    List.foldl_hom (fun heroes => { content with heroes }) fun _ _ => rfl
  have hrelics (content : Content) : pack.relics.foldl addRelic content = { content with
      relics := pack.relics.foldl (fun relics relic => relics.put relic.id relic) content.relics } :=
    List.foldl_hom (fun relics => { content with relics }) fun _ _ => rfl
  simp only [hpowers, henemies, hheroes, hrelics]

theorem addRest_withCards (pack : Pack) :
    (({} : Content).withCards pack.cards).addRest pack = filledFrom pack := by
  rw [addRest_eq]
  rfl

variable {pack : Pack} {mention : Mention}

theorem registers_filledFrom : (filledFrom pack).Registers mention ↔ pack.Registers mention := by
  cases mention with
  | card card => exact Catalog.contains_entered pack.cards card
  | power power =>
      show (Catalog.builtinPowers.putAll (·.id) pack.powers).contains power ↔
        power ∈ (PowerDefinition.builtin ++ pack.powers).map (·.id)
      rw [Catalog.contains_putAll, List.map_append, List.mem_append]
      exact or_congr_left (Catalog.contains_entered PowerDefinition.builtin power)
  | relic relic =>
      show (Catalog.empty.putAll (·.id) pack.relics).contains relic ↔
        relic ∈ pack.relics.map (·.id)
      rw [Catalog.contains_putAll]
      exact or_iff_right (by simp [Catalog.empty, Catalog.contains, Catalog.find?])

/-! ## Validation -/

theorem validateCard_eq_ok {content : Content} {card : CardDefinition} :
    content.validateCard card = .ok () ↔
      ∀ effect, effect ∈ card.effects ∨ effect ∈ card.upgradedEffects.getD [] →
        ∀ mention, effect.Names mention → content.Registers mention := by
  unfold validateCard
  rw [seq_eq_ok, requireEffects_eq_ok, requireEffects_eq_ok]
  grind

theorem validateEnemy_eq_ok {content : Content} {enemy : EnemyTemplate} :
    content.validateEnemy enemy = .ok () ↔
      (∀ start ∈ enemy.startingPowers, content.Registers (.power start.power)) ∧
        ∀ move ∈ enemy.moves, ∀ effect ∈ move.effects,
          ∀ mention, effect.Names mention → content.Registers mention := by
  unfold validateEnemy
  rw [seq_eq_ok, forM_eq_ok, forM_eq_ok]
  simp only [requirePower_eq_ok, requireEffects_eq_ok]

theorem validateHero_eq_ok {content : Content} {hero : HeroTemplate} :
    content.validateHero hero = .ok () ↔
      (∀ card ∈ hero.startingDeck, content.Registers (.card card)) ∧
        (∀ relic ∈ hero.startingRelics, content.Registers (.relic relic)) ∧
          ∀ ability, hero.ability = some ability → ∀ effect ∈ ability.effects,
            ∀ mention, effect.Names mention → content.Registers mention := by
  unfold validateHero
  rw [seq_eq_ok, seq_eq_ok, forM_eq_ok, forM_eq_ok]
  simp only [requireCard_eq_ok, requireRelic_eq_ok]
  cases hero.ability with
  | none => simp [pure, Except.pure, Option.forM]
  | some ability => simp [Option.forM, requireEffects_eq_ok]

theorem validateRelic_eq_ok {content : Content} {relic : RelicDefinition} :
    content.validateRelic relic = .ok () ↔
      ∀ trigger ∈ relic.triggers, ∀ effect ∈ trigger.effects,
        ∀ mention, effect.Names mention → content.Registers mention := by
  unfold validateRelic
  rw [forM_eq_ok]
  simp only [requireEffects_eq_ok]

/-- Validation passes when everything that is checked of the pack is there. -/
theorem validate_filledFrom_eq_ok :
    (filledFrom pack).validate = .ok () ↔
      ∀ mention, pack.Checked mention → pack.Registers mention := by
  have hcards : (filledFrom pack).cards.values = pack.cards := by
    rw [filledFrom, Catalog.values, List.map_map]
    exact List.map_id _
  have henemies {enemy : EnemyTemplate} : enemy ∈ (filledFrom pack).enemies.values ↔
      enemy ∈ pack.standing.enemies := Catalog.mem_values_putAll
  have hheroes {hero : HeroTemplate} : hero ∈ (filledFrom pack).heroes.values ↔
      hero ∈ pack.standing.heroes := Catalog.mem_values_putAll
  have hrelics {relic : RelicDefinition} : relic ∈ (filledFrom pack).relics.values ↔
      relic ∈ pack.standing.relics := Catalog.mem_values_putAll
  unfold validate
  rw [seq_eq_ok, seq_eq_ok, seq_eq_ok, forM_eq_ok, forM_eq_ok, forM_eq_ok, forM_eq_ok, hcards]
  simp only [validateCard_eq_ok, validateEnemy_eq_ok, validateHero_eq_ok, validateRelic_eq_ok,
    registers_filledFrom, henemies, hheroes, hrelics]
  constructor
  · rintro ⟨hcard, henemy, hhero, hrelic⟩ mention hchecked
    cases hchecked with
    | start h =>
        cases h with
        | power he hs => exact (henemy _ he).1 _ hs
        | card hh hc => exact (hhero _ hh).1 _ hc
        | relic hh hr => exact (hhero _ hh).2.1 _ hr
    | effect h ho he hn =>
        cases h with
        | plain hc => exact hcard _ hc _ (.inl he) _ hn
        | upgraded hc => exact hcard _ hc _ (.inr he) _ hn
        | move hm hmove => exact (henemy _ hm).2 _ hmove _ he _ hn
        | ability hh ha => exact (hhero _ hh).2.2 _ ha _ he _ hn
        | relic hr ht => exact hrelic _ hr _ ht _ he _ hn
        | power => exact absurd rfl ho
  · intro h
    refine ⟨fun card hc effect he mention hn => ?_, fun enemy hm => ⟨?_, ?_⟩,
      fun hero hh => ⟨?_, ?_, ?_⟩, fun relic hr trigger ht effect he mention hn => ?_⟩
    · rcases he with he | he
      · exact h _ (.effect (.plain hc) (by decide) he hn)
      · exact h _ (.effect (.upgraded hc) (by decide) he hn)
    · exact fun start hs => h _ (.start (.power hm hs))
    · exact fun move hmove effect he mention hn =>
        h _ (.effect (.move hm hmove) (by decide) he hn)
    · exact fun card hc => h _ (.start (.card hh hc))
    · exact fun relic hr => h _ (.start (.relic hh hr))
    · exact fun ability ha effect he mention hn =>
        h _ (.effect (.ability hh ha) (by decide) he hn)
    · exact h _ (.effect (.relic hr ht) (by decide) he hn)

/-! ## Acceptance -/

/-- Content is made from a pack whose cards have different names if what it is filled with passes
the checks, and then it is that. -/
theorem ofPack_eq_ok_iff {content : Content} : ofPack pack = .ok content ↔
    (pack.cards.map (·.id)).Nodup ∧ (filledFrom pack).validate = .ok () ∧
      filledFrom pack = content := by
  have hadd (result : Content) : ({} : Content).addCards pack.cards = (result, none) ↔
      (pack.cards.map (·.id)).Nodup ∧ result = ({} : Content).withCards pack.cards := by
    rw [addCards_eq_none]
    simp [Catalog.empty, Catalog.contains, Catalog.find?]
  unfold ofPack extend
  rcases hcards : ({} : Content).addCards pack.cards with ⟨result, _ | error⟩
  · obtain ⟨hnodup, rfl⟩ := (hadd result).mp hcards
    dsimp only
    rw [addRest_withCards]
    cases hvalid : (filledFrom pack).validate with
    | ok => simp [hnodup]
    | error error => simp
  · have hnodup : ¬(pack.cards.map (·.id)).Nodup := fun h =>
      absurd ((hadd _).mpr ⟨h, rfl⟩) (by simp [hcards])
    simp [hnodup]

/-- **A pack is accepted exactly when its cards have different names and all that is checked is
there.** -/
theorem ofPack_accepts_iff (pack : Pack) :
    (∃ content, ofPack pack = .ok content) ↔
      (pack.cards.map (·.id)).Nodup ∧ ∀ mention, pack.Checked mention → pack.Registers mention := by
  simp only [ofPack_eq_ok_iff, validate_filledFrom_eq_ok, exists_and_left, exists_eq', and_true]

/-- In content that is made from a pack the cards are entered under their names. -/
theorem filed_of_ofPack {content : Content} (h : ofPack pack = .ok content) :
    content.cards.Filed (·.id) := by
  obtain ⟨hnodup, -, rfl⟩ := ofPack_eq_ok_iff.mp h
  refine ⟨fun entry hmem => ?_, ?_⟩
  · obtain ⟨card, -, rfl⟩ := List.mem_map.mp hmem
    rfl
  · show ((pack.cards.map fun card => (card.id, card)).map (·.1)).Nodup
    rwa [List.map_map]

/-- **Acceptance says that a pack is complete exactly when, whenever all that is checked is there,
so is what was overlooked**: what conditions ask for, what the triggers of powers name, and what
only replaced definitions say. -/
theorem ofPack_exact_iff (pack : Pack) :
    ((∃ content, ofPack pack = .ok content) ↔ pack.Complete) ↔
      ((pack.cards.map (·.id)).Nodup → (∀ mention, pack.Checked mention → pack.Registers mention) →
        ∀ mention, pack.Overlooked mention → pack.Registers mention) := by
  rw [ofPack_accepts_iff]
  unfold Pack.Complete
  simp only [Pack.mentions_iff, or_imp, forall_and]
  constructor
  · intro h hnodup hchecked
    exact (h.mp ⟨hnodup, hchecked⟩).2.2
  · intro h
    exact ⟨fun ⟨hnodup, hchecked⟩ => ⟨hnodup, hchecked, h hnodup hchecked⟩,
      fun ⟨hnodup, hchecked, _⟩ => ⟨hnodup, hchecked⟩⟩

/-- A pack of one card that asks for a power which nobody has defined. -/
def askingPack : Pack where
  cards :=
    [{ id := "hex", name := "Hex", theme := .skill, cost := .fixed 0
       effects := [.conditional (.hasPower .self "doom" 1) [] []] }]

/-- Acceptance does not say that a pack is complete. -/
theorem ofPack_accepts_incomplete :
    ¬((∃ content, ofPack askingPack = .ok content) ↔ askingPack.Complete) := by
  intro h
  have haccepted : ∃ content, ofPack askingPack = .ok content := ⟨_, rfl⟩
  have hmentioned : askingPack.Mentions (.power "doom") :=
    .effect (.plain List.mem_cons_self) List.mem_cons_self
      (.inr ⟨"doom", rfl, .conditional .hasPower⟩)
  have hregistered : "doom" ∈ (PowerDefinition.builtin ++ askingPack.powers).map (·.id) :=
    (h.mp haccepted).2 _ hmentioned
  exact absurd hregistered (by decide)

end Content

end CardCombat
