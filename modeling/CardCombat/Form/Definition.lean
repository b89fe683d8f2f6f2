import CardCombat.Config
import CardCombat.Content.Basic
import CardCombat.Form.Effect

/-!
# Written forms of definitions

Cards, powers, enemies, heroes, relics and packs of them, and the numbers of the rules.
-/

namespace CardCombat

/-! ## Cards -/

namespace Cost

def toJson : Cost → Json
  | fixed amount => .object [("fixed", .int amount)]
  | x => .string "x"

def ofJson? (json : Json) : Option Cost :=
  json.named? false (fun _ => "x") [x] <|>
    json.wrapped? "fixed" fun json => json.signed?.map fixed

end Cost

namespace Keywords

def toJson (keywords : Keywords) : Json :=
  .object [("exhaust", .bool keywords.exhaust), ("retain", .bool keywords.retain),
    ("ethereal", .bool keywords.ethereal), ("innate", .bool keywords.innate),
    ("unplayable", .bool keywords.unplayable)]

def ofJson? (json : Json) : Option Keywords := do
  let members ← json.record?
  return { exhaust := ← members.withDefault "exhaust" false Json.bool?
           retain := ← members.withDefault "retain" false Json.bool?
           ethereal := ← members.withDefault "ethereal" false Json.bool?
           innate := ← members.withDefault "innate" false Json.bool?
           unplayable := ← members.withDefault "unplayable" false Json.bool? }

end Keywords

namespace CardDefinition

def toJson (card : CardDefinition) : Json :=
  .object [("id", .string card.id), ("name", .string card.name), ("theme", card.theme.toJson),
    ("rarity", card.rarity.toJson), ("cost", card.cost.toJson),
    ("upgradedCost", .ofOption Cost.toJson card.upgradedCost),
    ("keywords", card.keywords.toJson), ("effects", .ofList Effect.toJson card.effects),
    ("upgradedEffects", .ofOption (.ofList Effect.toJson) card.upgradedEffects)]

def ofJson? (json : Json) : Option CardDefinition := do
  let members ← json.record?
  return { id := ← members.required "id" Json.string?
           name := ← members.required "name" Json.string?
           theme := ← members.required "theme" Theme.ofJson?
           rarity := ← members.withDefault "rarity" .common Rarity.ofJson?
           cost := ← members.required "cost" Cost.ofJson?
           upgradedCost := ← members.optional "upgradedCost" Cost.ofJson?
           keywords := ← members.withDefault "keywords" {} Keywords.ofJson?
           effects := ← members.withDefault "effects" [] (Json.list? Effect.ofJson?)
           upgradedEffects :=
            ← members.optional "upgradedEffects" (Json.list? Effect.ofJson?) }

end CardDefinition

/-! ## Powers -/

namespace Trigger

def toJson (trigger : Trigger) : Json :=
  .object [("event", trigger.occasion.toJson), ("effects", .ofList Effect.toJson trigger.effects)]

def ofJson? (json : Json) : Option Trigger := do
  let members ← json.record?
  return { occasion := ← members.required "event" Occasion.ofJson?
           effects := ← members.required "effects" (Json.list? Effect.ofJson?) }

end Trigger

namespace Decay

def toJson (decay : Decay) : Json :=
  .object [("on", decay.boundary.toJson), ("removeAll", .bool decay.removeAll)]

def ofJson? (json : Json) : Option Decay := do
  let members ← json.record?
  return { boundary := ← members.required "on" Boundary.ofJson?
           removeAll := ← members.withDefault "removeAll" false Json.bool? }

end Decay

namespace Modifiers

def toJson (modifiers : Modifiers) : Json :=
  .object [("outgoingFlat", .int modifiers.outgoing.flat),
    ("outgoingPercent", .int modifiers.outgoing.percent),
    ("incomingFlat", .int modifiers.incoming.flat),
    ("incomingPercent", .int modifiers.incoming.percent),
    ("blockFlat", .int modifiers.block.flat), ("blockPercent", .int modifiers.block.percent)]

/-- Reads one modifier. -/
def readModifier (members : Members) (flat percent : String) : Option Modifier := do
  return { flat := ← members.withDefault flat 0 Json.signed?
           percent := ← members.withDefault percent 0 Json.signed? }

def ofJson? (json : Json) : Option Modifiers := do
  let members ← json.record?
  return { outgoing := ← readModifier members "outgoingFlat" "outgoingPercent"
           incoming := ← readModifier members "incomingFlat" "incomingPercent"
           block := ← readModifier members "blockFlat" "blockPercent" }

end Modifiers

namespace PowerDefinition

def toJson (power : PowerDefinition) : Json :=
  .object [("id", .string power.id), ("name", .string power.name), ("kind", power.kind.toJson),
    ("stacking", power.stacking.toJson), ("removeAtZero", .bool power.removeAtZero),
    ("decay", .ofOption Decay.toJson power.decay), ("modifiers", power.modifiers.toJson),
    ("triggers", .ofList Trigger.toJson power.triggers)]

def ofJson? (json : Json) : Option PowerDefinition := do
  let members ← json.record?
  return { id := ← members.required "id" Json.string?
           name := ← members.required "name" Json.string?
           kind := ← members.required "kind" PowerKind.ofJson?
           stacking := ← members.required "stacking" Stacking.ofJson?
           removeAtZero := ← members.withDefault "removeAtZero" false Json.bool?
           decay := ← members.optional "decay" Decay.ofJson?
           modifiers := ← members.withDefault "modifiers" {} Modifiers.ofJson?
           triggers := ← members.withDefault "triggers" [] (Json.list? Trigger.ofJson?) }

end PowerDefinition

/-! ## Enemies -/

namespace EnemyMove

def toJson (move : EnemyMove) : Json :=
  .object [("name", .string move.name), ("kind", move.kind.toJson),
    ("weight", .single move.weight), ("effects", .ofList Effect.toJson move.effects)]

def ofJson? (json : Json) : Option EnemyMove := do
  let members ← json.record?
  return { name := ← members.required "name" Json.string?
           kind := ← members.required "kind" IntentKind.ofJson?
           weight := ← members.withDefault "weight" 1 Json.single?
           effects := ← members.required "effects" (Json.list? Effect.ofJson?) }

end EnemyMove

namespace StartingPower

def toJson (start : StartingPower) : Json :=
  .object [("power", .string start.power), ("amount", .int start.amount)]

def ofJson? (json : Json) : Option StartingPower := do
  let members ← json.record?
  return { power := ← members.required "power" Json.string?
           amount := ← members.required "amount" Json.signed? }

end StartingPower

namespace EnemyTemplate

def toJson (enemy : EnemyTemplate) : Json :=
  .object [("id", .string enemy.id), ("name", .string enemy.name),
    ("maxHealth", .int enemy.maxHealth), ("moves", .ofList EnemyMove.toJson enemy.moves),
    ("vulnerabilities", .ofList Element.toJson enemy.vulnerabilities),
    ("resistances", .ofList Element.toJson enemy.resistances),
    ("startingPowers", .ofList StartingPower.toJson enemy.startingPowers)]

def ofJson? (json : Json) : Option EnemyTemplate := do
  let members ← json.record?
  return { id := ← members.required "id" Json.string?
           name := ← members.required "name" Json.string?
           maxHealth := ← members.required "maxHealth" Json.signed?
           moves := ← members.required "moves" (Json.list? EnemyMove.ofJson?)
           vulnerabilities :=
            ← members.withDefault "vulnerabilities" [] (Json.list? Element.ofJson?)
           resistances := ← members.withDefault "resistances" [] (Json.list? Element.ofJson?)
           startingPowers :=
            ← members.withDefault "startingPowers" [] (Json.list? StartingPower.ofJson?) }

end EnemyTemplate

/-! ## Heroes and relics -/

namespace HeroAbility

def toJson (ability : HeroAbility) : Json :=
  .object [("name", .string ability.name), ("chargeRequired", .ofNat ability.chargeRequired),
    ("effects", .ofList Effect.toJson ability.effects)]

def ofJson? (json : Json) : Option HeroAbility := do
  let members ← json.record?
  return { name := ← members.required "name" Json.string?
           chargeRequired := ← members.required "chargeRequired" (Json.unsigned? 32)
           effects := ← members.required "effects" (Json.list? Effect.ofJson?) }

end HeroAbility

namespace HeroTemplate

def toJson (hero : HeroTemplate) : Json :=
  .object [("id", .string hero.id), ("name", .string hero.name),
    ("maxHealth", .int hero.maxHealth), ("maxEnergy", .int hero.maxEnergy),
    ("startingDeck", .ofList .string hero.startingDeck),
    ("startingRelics", .ofList .string hero.startingRelics),
    ("ability", .ofOption HeroAbility.toJson hero.ability)]

def ofJson? (json : Json) : Option HeroTemplate := do
  let members ← json.record?
  return { id := ← members.required "id" Json.string?
           name := ← members.required "name" Json.string?
           maxHealth := ← members.required "maxHealth" Json.signed?
           maxEnergy := ← members.withDefault "maxEnergy" 3 Json.signed?
           startingDeck := ← members.required "startingDeck" (Json.list? Json.string?)
           startingRelics := ← members.withDefault "startingRelics" [] (Json.list? Json.string?)
           ability := ← members.optional "ability" HeroAbility.ofJson? }

end HeroTemplate

namespace RelicDefinition

def toJson (relic : RelicDefinition) : Json :=
  .object [("id", .string relic.id), ("name", .string relic.name),
    ("description", .string relic.description),
    ("triggers", .ofList Trigger.toJson relic.triggers)]

def ofJson? (json : Json) : Option RelicDefinition := do
  let members ← json.record?
  return { id := ← members.required "id" Json.string?
           name := ← members.required "name" Json.string?
           description := ← members.withDefault "description" "" Json.string?
           triggers := ← members.withDefault "triggers" [] (Json.list? Trigger.ofJson?) }

end RelicDefinition

/-! ## Packs and rules -/

namespace Pack

def toJson (pack : Pack) : Json :=
  .object [("cards", .ofList CardDefinition.toJson pack.cards),
    ("powers", .ofList PowerDefinition.toJson pack.powers),
    ("enemies", .ofList EnemyTemplate.toJson pack.enemies),
    ("heroes", .ofList HeroTemplate.toJson pack.heroes),
    ("relics", .ofList RelicDefinition.toJson pack.relics)]

def ofJson? (json : Json) : Option Pack := do
  let members ← json.record?
  return { cards := ← members.withDefault "cards" [] (Json.list? CardDefinition.ofJson?)
           powers := ← members.withDefault "powers" [] (Json.list? PowerDefinition.ofJson?)
           enemies := ← members.withDefault "enemies" [] (Json.list? EnemyTemplate.ofJson?)
           heroes := ← members.withDefault "heroes" [] (Json.list? HeroTemplate.ofJson?)
           relics := ← members.withDefault "relics" [] (Json.list? RelicDefinition.ofJson?) }

end Pack

namespace Config

def toJson (config : Config) : Json :=
  .object [("drawPerTurn", .ofNat config.drawPerTurn), ("handLimit", .ofNat config.handLimit),
    ("maxEffectDepth", .ofNat config.maxEffectDepth),
    ("discoverChoices", .ofNat config.discoverChoices),
    ("chargePerCard", .ofNat config.chargePerCard)]

def ofJson? (json : Json) : Option Config := do
  let members ← json.record?
  return { drawPerTurn := ← members.required "drawPerTurn" (Json.unsigned? 64)
           handLimit := ← members.required "handLimit" (Json.unsigned? 64)
           maxEffectDepth := ← members.required "maxEffectDepth" (Json.unsigned? 32)
           discoverChoices := ← members.required "discoverChoices" (Json.unsigned? 64)
           chargePerCard := ← members.required "chargePerCard" (Json.unsigned? 32) }

end Config

end CardCombat
