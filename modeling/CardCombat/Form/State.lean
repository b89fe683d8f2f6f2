import CardCombat.Form.Effect
import CardCombat.Json.Reader
import CardCombat.Json.Writer
import CardCombat.Run

/-!
# Written forms of runs

A run is saved as the text of one object, the combat in progress with its events and counters
included. The generator is not part of it: a run that was loaded draws from the start of the stream
of seed zero.
-/

namespace CardCombat

/-! ## Cards and piles -/

namespace Card

def toJson (card : Card) : Json :=
  .object [("uid", card.uid.toJson), ("definitionId", .string card.definition),
    ("upgraded", .bool card.upgraded), ("retained", .bool card.retained),
    ("ethereal", .bool card.ethereal), ("innate", .bool card.innate),
    ("unplayable", .bool card.unplayable), ("costModifier", .int card.costModifier)]

def ofJson? (json : Json) : Option Card := do
  let members ← json.record?
  return { uid := ← members.required "uid" CardUid.ofJson?
           definition := ← members.required "definitionId" Json.string?
           upgraded := ← members.withDefault "upgraded" false Json.bool?
           retained := ← members.withDefault "retained" false Json.bool?
           ethereal := ← members.withDefault "ethereal" false Json.bool?
           innate := ← members.withDefault "innate" false Json.bool?
           unplayable := ← members.withDefault "unplayable" false Json.bool?
           costModifier := ← members.withDefault "costModifier" 0 Json.signed? }

end Card

namespace Piles

def toJson (piles : Piles) : Json :=
  .object [("hand", .ofList Card.toJson piles.hand),
    ("drawPile", .ofList Card.toJson piles.drawPile),
    ("discardPile", .ofList Card.toJson piles.discardPile),
    ("exhaustPile", .ofList Card.toJson piles.exhaustPile)]

def ofJson? (json : Json) : Option Piles := do
  let members ← json.record?
  return { hand := ← members.required "hand" (Json.list? Card.ofJson?)
           drawPile := ← members.required "drawPile" (Json.list? Card.ofJson?)
           discardPile := ← members.required "discardPile" (Json.list? Card.ofJson?)
           exhaustPile := ← members.required "exhaustPile" (Json.list? Card.ofJson?) }

end Piles

/-! ## Events -/

namespace SelectionKind

def toJson : SelectionKind → Json
  | banish => .object [("kind", .string "banish")]
  | discover destination =>
    .object [("kind", .string "discover"), ("destination", destination.toJson)]
  | scry => .object [("kind", .string "scry")]
  | tutor destination =>
    .object [("kind", .string "tutor"), ("destination", destination.toJson)]
  | discard => .object [("kind", .string "discard")]

def ofTagged? : String × Members → Option SelectionKind
  | ("banish", _) => some banish
  | ("discover", members) => do return discover (← members.required "destination" (Pile.read true))
  | ("scry", _) => some scry
  | ("tutor", members) => do return tutor (← members.required "destination" (Pile.read true))
  | ("discard", _) => some discard
  | _ => none

/-- Reads a kind of selection; `inner` says that it is part of a tagged value. -/
def read (inner : Bool) (json : Json) : Option SelectionKind :=
  (json.tagged? "kind" tags inner).bind ofTagged?

end SelectionKind

namespace Event

/-- A tagged object. -/
def tagged (tag : String) (members : Members) : Json :=
  .object (("type", .string tag) :: members)

def toJson : Event → Json
  | damage target amount blocked element =>
    tagged "damage" [("target", target.toJson), ("amount", .int amount),
      ("blocked", .int blocked), ("element", element.toJson)]
  | block target amount => tagged "block" [("target", target.toJson), ("amount", .int amount)]
  | barrier target amount => tagged "barrier" [("target", target.toJson), ("amount", .int amount)]
  | heal target amount => tagged "heal" [("target", target.toJson), ("amount", .int amount)]
  | destroyBlock target amount =>
    tagged "destroyBlock" [("target", target.toJson), ("amount", .int amount)]
  | maxHealth target delta => tagged "maxHealth" [("target", target.toJson), ("delta", .int delta)]
  | setHealth target value => tagged "setHealth" [("target", target.toJson), ("value", .int value)]
  | execute target => tagged "execute" [("target", target.toJson)]
  | death target => tagged "death" [("target", target.toJson)]
  | combo target name => tagged "combo" [("target", target.toJson), ("name", .string name)]
  | energy delta value => tagged "energy" [("delta", .int delta), ("value", .int value)]
  | energyNextTurn amount => tagged "energyNextTurn" [("amount", .int amount)]
  | gold delta value => tagged "gold" [("delta", .int delta), ("value", .int value)]
  | draw count => tagged "draw" [("count", .ofNat count)]
  | discard card => tagged "discard" [("card", card.toJson)]
  | exhaust card => tagged "exhaust" [("card", card.toJson)]
  | banish card => tagged "banish" [("card", card.toJson)]
  | addCard card cardId pile =>
    tagged "addCard" [("card", card.toJson), ("cardId", .string cardId), ("pile", pile.toJson)]
  | shuffle count => tagged "shuffle" [("count", .ofNat count)]
  | retain card => tagged "retain" [("card", card.toJson)]
  | putOnDeck card => tagged "putOnDeck" [("card", card.toJson)]
  | costChange card delta => tagged "costChange" [("card", card.toJson), ("delta", .int delta)]
  | upgrade card => tagged "upgrade" [("card", card.toJson)]
  | transform card definition =>
    tagged "transform" [("card", card.toJson), ("into", .string definition)]
  | mill card => tagged "mill" [("card", card.toJson)]
  | cardFlag card flag value =>
    tagged "cardFlag" [("card", card.toJson), ("flag", .string flag), ("value", .bool value)]
  | replay card => tagged "replay" [("card", card.toJson)]
  | selectionRequested kind count =>
    tagged "selectionRequested" [("kind", kind.toJson), ("count", .ofNat count)]
  | powerApplied target power amount =>
    tagged "powerApplied" [("target", target.toJson), ("power", .string power),
      ("amount", .int amount)]
  | powerReduced target power amount =>
    tagged "powerReduced" [("target", target.toJson), ("power", .string power),
      ("amount", .int amount)]
  | powerRemoved target power =>
    tagged "powerRemoved" [("target", target.toJson), ("power", .string power)]
  | powerSilenced target power turns =>
    tagged "powerSilenced" [("target", target.toJson), ("power", .string power),
      ("turns", .ofNat turns)]
  | intent enemy name => tagged "intent" [("enemy", enemy.toJson), ("name", .string name)]
  | intentWeakened enemy amount =>
    tagged "intentWeakened" [("enemy", enemy.toJson), ("amount", .int amount)]
  | heroAbility => tagged "heroAbility" []
  | turnStart turn => tagged "turnStart" [("turn", .ofNat turn)]

/-- Reads an event about the quantity of a combatant. -/
def quantityOf (build : CombatantId → Int → Event) (key : String) (members : Members) :
    Option Event := do
  return build (← members.required "target" CombatantId.ofJson?)
    (← members.required key Json.signed?)

/-- Reads an event about a card. -/
def cardOf (build : CardUid → Event) (members : Members) : Option Event := do
  return build (← members.required "card" CardUid.ofJson?)

/-- Reads an event about a balance. -/
def balanceOf (build : Int → Int → Event) (members : Members) : Option Event := do
  return build (← members.required "delta" Json.signed?) (← members.required "value" Json.signed?)

/-- Reads an event about the stack of a power. -/
def stackOf (build : CombatantId → PowerId → Int → Event) (members : Members) :
    Option Event := do
  return build (← members.required "target" CombatantId.ofJson?)
    (← members.required "power" Json.string?) (← members.required "amount" Json.signed?)

/-- Reads an event about combatants. -/
def ofEntityTag? : String × Members → Option Event
  | ("damage", members) => do
    return damage (← members.required "target" CombatantId.ofJson?)
      (← members.required "amount" Json.signed?) (← members.required "blocked" Json.signed?)
      (← members.required "element" (Element.read true))
  | ("block", members) => quantityOf block "amount" members
  | ("barrier", members) => quantityOf barrier "amount" members
  | ("heal", members) => quantityOf heal "amount" members
  | ("destroyBlock", members) => quantityOf destroyBlock "amount" members
  | ("maxHealth", members) => quantityOf maxHealth "delta" members
  | ("setHealth", members) => quantityOf setHealth "value" members
  | ("execute", members) => do return execute (← members.required "target" CombatantId.ofJson?)
  | ("death", members) => do return death (← members.required "target" CombatantId.ofJson?)
  | ("combo", members) => do
    return combo (← members.required "target" CombatantId.ofJson?)
      (← members.required "name" Json.string?)
  | ("powerApplied", members) => stackOf powerApplied members
  | ("powerReduced", members) => stackOf powerReduced members
  | ("powerRemoved", members) => do
    return powerRemoved (← members.required "target" CombatantId.ofJson?)
      (← members.required "power" Json.string?)
  | ("powerSilenced", members) => do
    return powerSilenced (← members.required "target" CombatantId.ofJson?)
      (← members.required "power" Json.string?) (← members.required "turns" (Json.unsigned? 32))
  | ("intent", members) => do
    return intent (← members.required "enemy" CombatantId.ofJson?)
      (← members.required "name" Json.string?)
  | ("intentWeakened", members) => do
    return intentWeakened (← members.required "enemy" CombatantId.ofJson?)
      (← members.required "amount" Json.signed?)
  | _ => none

/-- Reads an event about cards, resources or the course of the combat. -/
def ofTableTag? : String × Members → Option Event
  | ("energy", members) => balanceOf energy members
  | ("energyNextTurn", members) => do
    return energyNextTurn (← members.required "amount" Json.signed?)
  | ("gold", members) => balanceOf gold members
  | ("draw", members) => do return draw (← members.required "count" (Json.unsigned? 64))
  | ("discard", members) => cardOf discard members
  | ("exhaust", members) => cardOf exhaust members
  | ("banish", members) => cardOf banish members
  | ("addCard", members) => do
    return addCard (← members.required "card" CardUid.ofJson?)
      (← members.required "cardId" Json.string?) (← members.required "pile" (Pile.read true))
  | ("shuffle", members) => do return shuffle (← members.required "count" (Json.unsigned? 64))
  | ("retain", members) => cardOf retain members
  | ("putOnDeck", members) => cardOf putOnDeck members
  | ("costChange", members) => do
    return costChange (← members.required "card" CardUid.ofJson?)
      (← members.required "delta" Json.signed?)
  | ("upgrade", members) => cardOf upgrade members
  | ("transform", members) => do
    return transform (← members.required "card" CardUid.ofJson?)
      (← members.required "into" Json.string?)
  | ("mill", members) => cardOf mill members
  | ("cardFlag", members) => do
    return cardFlag (← members.required "card" CardUid.ofJson?)
      (← members.required "flag" Json.string?) (← members.required "value" Json.bool?)
  | ("replay", members) => cardOf replay members
  | ("selectionRequested", members) => do
    return selectionRequested (← members.required "kind" (SelectionKind.read true))
      (← members.required "count" (Json.unsigned? 64))
  | ("heroAbility", _) => some heroAbility
  | ("turnStart", members) => do
    return turnStart (← members.required "turn" (Json.unsigned? 32))
  | _ => none

def ofJson? (json : Json) : Option Event :=
  (json.tagged? "type" tags false).bind fun tagged => ofEntityTag? tagged <|> ofTableTag? tagged

end Event

/-! ## Combatants -/

namespace Power

def toJson (power : Power) : Json :=
  .object [("id", .string power.id), ("amount", .int power.amount),
    ("duration", .ofOption .int power.duration), ("silencedTurns", .ofNat power.silencedTurns)]

def ofJson? (json : Json) : Option Power := do
  let members ← json.record?
  return { id := ← members.required "id" Json.string?
           amount := ← members.required "amount" Json.signed?
           duration := ← members.optional "duration" Json.signed?
           silencedTurns := ← members.withDefault "silencedTurns" 0 (Json.unsigned? 32) }

end Power

namespace Intent

def toJson (intent : Intent) : Json :=
  .object [("moveIndex", .ofNat intent.moveIndex), ("name", .string intent.name),
    ("kind", intent.kind.toJson), ("effects", .ofList Effect.toJson intent.effects),
    ("weakened", .int intent.weakened)]

def ofJson? (json : Json) : Option Intent := do
  let members ← json.record?
  return { moveIndex := ← members.required "moveIndex" (Json.unsigned? 64)
           name := ← members.required "name" Json.string?
           kind := ← members.required "kind" IntentKind.ofJson?
           effects := ← members.required "effects" (Json.list? Effect.ofJson?)
           weakened := ← members.required "weakened" Json.signed? }

end Intent

namespace EnemyRole

def toJson (state : EnemyRole) : Json :=
  .object [("templateId", .string state.template),
    ("vulnerabilities", .ofList Element.toJson state.vulnerabilities),
    ("resistances", .ofList Element.toJson state.resistances),
    ("intent", .ofOption Intent.toJson state.intent),
    ("lastMove", .ofOption .ofNat state.lastMove)]

def ofJson? (json : Json) : Option EnemyRole := do
  let members ← json.record?
  return { template := ← members.required "templateId" Json.string?
           vulnerabilities := ← members.required "vulnerabilities" (Json.list? Element.ofJson?)
           resistances := ← members.required "resistances" (Json.list? Element.ofJson?)
           intent := ← members.optional "intent" Intent.ofJson?
           lastMove := ← members.optional "lastMove" (Json.unsigned? 64) }

end EnemyRole

namespace Combatant

def toJson (combatant : Combatant) : Json :=
  .object [("id", combatant.id.toJson), ("name", .string combatant.name),
    ("currentHealth", .int combatant.health), ("maxHealth", .int combatant.maxHealth),
    ("block", .int combatant.block), ("barrier", .int combatant.barrier),
    ("powers", .ofList Power.toJson combatant.powers),
    ("enemy", .ofOption EnemyRole.toJson combatant.enemy)]

def ofJson? (json : Json) : Option Combatant := do
  let members ← json.record?
  return { id := ← members.required "id" CombatantId.ofJson?
           name := ← members.required "name" Json.string?
           health := ← members.required "currentHealth" Json.signed?
           maxHealth := ← members.required "maxHealth" Json.signed?
           block := ← members.required "block" Json.signed?
           barrier := ← members.required "barrier" Json.signed?
           powers := ← members.required "powers" (Json.list? Power.ofJson?)
           enemy := ← members.optional "enemy" EnemyRole.ofJson? }

end Combatant

/-! ## Combats -/

namespace Resources

def toJson (resources : Resources) : Json :=
  .object [("energy", .int resources.energy), ("maxEnergy", .int resources.maxEnergy),
    ("energyNextTurn", .int resources.energyNextTurn),
    ("abilityCharge", .ofNat resources.abilityCharge),
    ("abilityChargeRequired", .ofNat resources.abilityChargeRequired),
    ("abilityUsedThisTurn", .bool resources.abilityUsedThisTurn)]

def ofJson? (json : Json) : Option Resources := do
  let members ← json.record?
  return { energy := ← members.required "energy" Json.signed?
           maxEnergy := ← members.required "maxEnergy" Json.signed?
           energyNextTurn := ← members.required "energyNextTurn" Json.signed?
           abilityCharge := ← members.required "abilityCharge" (Json.unsigned? 32)
           abilityChargeRequired :=
            ← members.required "abilityChargeRequired" (Json.unsigned? 32)
           abilityUsedThisTurn := ← members.required "abilityUsedThisTurn" Json.bool? }

end Resources

namespace Selection

def toJson (selection : Selection) : Json :=
  .object [("kind", selection.kind.toJson),
    ("candidates", .ofList Card.toJson selection.candidates), ("min", .ofNat selection.min),
    ("max", .ofNat selection.max)]

def ofJson? (json : Json) : Option Selection := do
  let members ← json.record?
  return { kind := ← members.required "kind" (SelectionKind.read false)
           candidates := ← members.required "candidates" (Json.list? Card.ofJson?)
           min := ← members.required "min" (Json.unsigned? 64)
           max := ← members.required "max" (Json.unsigned? 64) }

end Selection

namespace ActiveCard

def toJson (entry : ActiveCard) : Json :=
  .object [("card", entry.card.toJson), ("route", .ofOption Route.toJson entry.route)]

def ofJson? (json : Json) : Option ActiveCard := do
  let members ← json.record?
  return { card := ← members.required "card" Card.ofJson?
           route := ← members.optional "route" Route.ofJson? }

end ActiveCard

namespace Combat

def toJson (combat : Combat) : Json :=
  .object [("phase", combat.phase.toJson), ("turn", .ofNat combat.turn),
    ("player", combat.player.toJson), ("resources", combat.resources.toJson),
    ("enemies", .ofList Combatant.toJson combat.enemies), ("piles", combat.piles.toJson),
    ("cardsPlayedThisTurn", .ofNat combat.cardsPlayedThisTurn),
    ("lastPlayed", .ofOption Card.toJson combat.lastPlayed),
    ("inPlay", .ofList ActiveCard.toJson combat.inPlay),
    ("pendingSelection", .ofOption Selection.toJson combat.pending),
    ("locked", .bool combat.locked), ("visualQueue", .ofList Event.toJson combat.events.toList),
    ("nextEnemyId", .ofNat combat.nextEnemyId), ("nextCardUid", .ofNat combat.nextCardUid)]

def ofJson? (json : Json) : Option Combat := do
  let members ← json.record?
  return { phase := ← members.required "phase" Phase.ofJson?
           turn := ← members.required "turn" (Json.unsigned? 32)
           player := ← members.required "player" Combatant.ofJson?
           resources := ← members.required "resources" Resources.ofJson?
           enemies := ← members.required "enemies" (Json.list? Combatant.ofJson?)
           piles := ← members.required "piles" Piles.ofJson?
           cardsPlayedThisTurn := ← members.required "cardsPlayedThisTurn" (Json.unsigned? 32)
           lastPlayed := ← members.optional "lastPlayed" Card.ofJson?
           inPlay := ← members.required "inPlay" (Json.list? ActiveCard.ofJson?)
           pending := ← members.optional "pendingSelection" Selection.ofJson?
           locked := ← members.required "locked" Json.bool?
           events := (← members.required "visualQueue" (Json.list? Event.ofJson?)).toArray
           nextEnemyId := ← members.required "nextEnemyId" (Json.unsigned? 32)
           nextCardUid := ← members.required "nextCardUid" (Json.unsigned? 64) }

end Combat

/-! ## Runs -/

namespace Stats

def toJson (stats : Stats) : Json :=
  .object [("damageDealt", .ofNat stats.damageDealt), ("damageTaken", .ofNat stats.damageTaken),
    ("cardsPlayed", .ofNat stats.cardsPlayed), ("enemiesKilled", .ofNat stats.enemiesKilled),
    ("goldEarned", .ofNat stats.goldEarned), ("combatsWon", .ofNat stats.combatsWon)]

def ofJson? (json : Json) : Option Stats := do
  let members ← json.record?
  return { damageDealt := ← members.required "damageDealt" (Json.unsigned? 64)
           damageTaken := ← members.required "damageTaken" (Json.unsigned? 64)
           cardsPlayed := ← members.required "cardsPlayed" (Json.unsigned? 64)
           enemiesKilled := ← members.required "enemiesKilled" (Json.unsigned? 64)
           goldEarned := ← members.required "goldEarned" (Json.unsigned? 64)
           combatsWon := ← members.required "combatsWon" (Json.unsigned? 64) }

end Stats

namespace Run

def toJson (run : Run) : Json :=
  .object [("hero", .string run.hero), ("playerHealth", .int run.health),
    ("playerMaxHealth", .int run.maxHealth), ("gold", .int run.gold),
    ("deck", .ofList Card.toJson run.deck), ("relics", .ofList .string run.relics),
    ("floor", .ofNat run.floor), ("stats", run.stats.toJson),
    ("combat", .ofOption Combat.toJson run.combat)]

def ofJson? (json : Json) : Option Run := do
  let members ← json.record?
  return { hero := ← members.required "hero" Json.string?
           health := ← members.required "playerHealth" Json.signed?
           maxHealth := ← members.required "playerMaxHealth" Json.signed?
           gold := ← members.required "gold" Json.signed?
           deck := ← members.required "deck" (Json.list? Card.ofJson?)
           relics := ← members.required "relics" (Json.list? Json.string?)
           floor := ← members.required "floor" (Json.unsigned? 32)
           stats := ← members.required "stats" Stats.ofJson?
           combat := ← members.optional "combat" Combat.ofJson?
           rng := default }

/-- The text that a run is saved as. -/
def save (run : Run) : String := run.toJson.text

/-- The run that a text was saved from, but for its generator. -/
def load? (text : String) : Option Run := (Json.parse? text).bind ofJson?

end Run

namespace Rng

def toJson (rng : Rng) : Json :=
  .object [("seed", .ofNat rng.seed.toNat), ("word_pos", .ofNat rng.position)]

def ofJson? (json : Json) : Option Rng := do
  let members ← json.record?
  return { seed := (← members.required "seed" (Json.unsigned? 64)).toUInt64
           position := ← members.required "word_pos" (Json.unsigned? 128) }

end Rng

end CardCombat
