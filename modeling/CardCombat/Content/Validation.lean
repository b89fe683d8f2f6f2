import CardCombat.Content.Basic

/-!
# Valid content

Content is valid if every card, power and relic that it names is there. References are checked in
the order cards, enemies, heroes, relics, and the first one that leads nowhere is reported, together
with the definition that holds it.
-/

namespace CardCombat

namespace Effect

mutual

/-- The cards and powers that an effect names, in the order in which they are checked. -/
def references : Effect → List (CardId ⊕ PowerId)
  | damage _ _ _ _ onHit => referencesAll onHit
  | addCard card .. | addStatusCard card .. => [.inl card]
  | applyPower power .. | removePower power .. | transferPower power .. => [.inr power]
  | stealPower (some power) .. | silencePower (some power) .. => [.inr power]
  | conditional _ yes no => referencesAll yes ++ referencesAll no
  | repeated _ effects | sequence effects | forEach _ effects => referencesAll effects
  | randomChoice choices => referencesBranches choices
  | _ => []

def referencesAll : List Effect → List (CardId ⊕ PowerId)
  | [] => []
  | effect :: effects => effect.references ++ referencesAll effects

def referencesBranches : List Branch → List (CardId ⊕ PowerId)
  | [] => []
  | .mk _ effects :: branches => referencesAll effects ++ referencesBranches branches

end

end Effect

namespace Content

/-! ## References -/

def requireCard (content : Content) (owner : String) (card : CardId) : Except ContentError Unit :=
  if content.cards.contains card then .ok () else .error (.unknownCard owner card)

def requirePower (content : Content) (owner : String) (power : PowerId) :
    Except ContentError Unit :=
  if content.powers.contains power then .ok () else .error (.unknownPower owner power)

def requireRelic (content : Content) (owner : String) (relic : RelicId) :
    Except ContentError Unit :=
  if content.relics.contains relic then .ok () else .error (.unknownRelic owner relic)

def requireReference (content : Content) (owner : String) :
    CardId ⊕ PowerId → Except ContentError Unit
  | .inl card => content.requireCard owner card
  | .inr power => content.requirePower owner power

def requireEffects (content : Content) (owner : String) (effects : List Effect) :
    Except ContentError Unit :=
  (Effect.referencesAll effects).forM (content.requireReference owner)

/-! ## Definitions -/

def validateCard (content : Content) (card : CardDefinition) : Except ContentError Unit := do
  let owner := "card:" ++ card.id
  content.requireEffects owner card.effects
  content.requireEffects owner (card.upgradedEffects.getD [])

def validateEnemy (content : Content) (enemy : EnemyTemplate) : Except ContentError Unit := do
  let owner := "enemy:" ++ enemy.id
  enemy.startingPowers.forM fun start => content.requirePower owner start.power
  enemy.moves.forM fun move => content.requireEffects owner move.effects

def validateHero (content : Content) (hero : HeroTemplate) : Except ContentError Unit := do
  let owner := "hero:" ++ hero.id
  hero.startingDeck.forM (content.requireCard owner)
  hero.startingRelics.forM (content.requireRelic owner)
  hero.ability.forM fun ability => content.requireEffects owner ability.effects

def validateRelic (content : Content) (relic : RelicDefinition) : Except ContentError Unit :=
  relic.triggers.forM fun trigger => content.requireEffects ("relic:" ++ relic.id) trigger.effects

/-- Checks all references. -/
def validate (content : Content) : Except ContentError Unit := do
  content.cards.values.forM content.validateCard
  content.enemies.values.forM content.validateEnemy
  content.heroes.values.forM content.validateHero
  content.relics.values.forM content.validateRelic

/-! ## Packs -/

/-- Adds a pack and checks all references; the content after it, and what was wrong. -/
def extend (content : Content) (pack : Pack) : Content × Option ContentError :=
  match content.addCards pack.cards with
  | (content, some error) => (content, some error)
  | (content, none) =>
    let content := content.addRest pack
    match content.validate with
    | .ok () => (content, none)
    | .error error => (content, some error)

/-- The content of a pack alone. -/
def ofPack (pack : Pack) : Except ContentError Content :=
  match ({} : Content).extend pack with
  | (content, none) => .ok content
  | (_, some error) => .error error

end Content

end CardCombat
