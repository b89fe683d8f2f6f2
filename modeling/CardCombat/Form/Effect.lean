import CardCombat.Form.Aim

/-!
# Written form of effects

An effect is a tagged value. What most effects of a kind leave unsaid has a default, so that content
is short; a written effect says everything.
-/

namespace CardCombat

namespace Effect

/-- A tagged object. -/
def tagged (tag : String) (members : Members) : Json :=
  .object (("type", .string tag) :: members)

/-! ## Writing -/

mutual

def toJson : Effect → Json
  | damage amount target element piercing onHit =>
    tagged "damage" [("amount", amount.toJson), ("target", target.toJson),
      ("element", element.toJson), ("piercing", .bool piercing),
      ("onHit", .array (listToJson onHit))]
  | block amount target =>
    tagged "block" [("amount", amount.toJson), ("target", target.toJson)]
  | barrier amount target =>
    tagged "barrier" [("amount", amount.toJson), ("target", target.toJson)]
  | heal amount target overheal =>
    tagged "heal" [("amount", amount.toJson), ("target", target.toJson),
      ("overheal", .bool overheal)]
  | lifesteal amount target element percent =>
    tagged "lifesteal" [("amount", amount.toJson), ("target", target.toJson),
      ("element", element.toJson), ("percent", .int percent)]
  | destroyBlock target includeBarrier =>
    tagged "destroyBlock" [("target", target.toJson), ("includeBarrier", .bool includeBarrier)]
  | maxHealth amount target =>
    tagged "maxHealth" [("amount", amount.toJson), ("target", target.toJson)]
  | setHealth amount target =>
    tagged "setHealth" [("amount", amount.toJson), ("target", target.toJson)]
  | execute threshold target =>
    tagged "execute" [("threshold", .int threshold), ("target", target.toJson)]
  | splash amount target element splashPercent =>
    tagged "splash" [("amount", amount.toJson), ("target", target.toJson),
      ("element", element.toJson), ("splashPercent", .int splashPercent)]
  | recoil amount target element cost =>
    tagged "recoil" [("amount", amount.toJson), ("target", target.toJson),
      ("element", element.toJson), ("recoil", cost.toJson)]
  | counter amount target =>
    tagged "counter" [("amount", amount.toJson), ("target", target.toJson)]
  | chain amount target element bounces falloffPercent =>
    tagged "chain" [("amount", amount.toJson), ("target", target.toJson),
      ("element", element.toJson), ("bounces", .ofNat bounces),
      ("falloffPercent", .int falloffPercent)]
  | weakenIntent amount target =>
    tagged "weakenIntent" [("amount", amount.toJson), ("target", target.toJson)]
  | mark amount target =>
    tagged "mark" [("amount", amount.toJson), ("target", target.toJson)]
  | reflect amount target =>
    tagged "reflect" [("amount", amount.toJson), ("target", target.toJson)]
  | amplify amount target =>
    tagged "amplify" [("amount", amount.toJson), ("target", target.toJson)]
  | energy amount operation =>
    tagged "energy" [("amount", amount.toJson), ("operation", operation.toJson)]
  | gold amount operation =>
    tagged "gold" [("amount", amount.toJson), ("operation", operation.toJson)]
  | energyNextTurn amount => tagged "energyNextTurn" [("amount", amount.toJson)]
  | draw amount => tagged "draw" [("amount", amount.toJson)]
  | discard amount target playerChoice =>
    tagged "discard" [("amount", amount.toJson), ("target", target.toJson),
      ("playerChoice", .bool playerChoice)]
  | exhaust amount target =>
    tagged "exhaust" [("amount", amount.toJson), ("target", target.toJson)]
  | banish amount target playerChoice =>
    tagged "banish" [("amount", amount.toJson), ("target", target.toJson),
      ("playerChoice", .bool playerChoice)]
  | addCard cardId destination count upgraded position =>
    tagged "addCard" [("cardId", .string cardId), ("destination", destination.toJson),
      ("count", count.toJson), ("upgraded", .bool upgraded), ("position", position.toJson)]
  | shuffle includeDiscard => tagged "shuffle" [("includeDiscard", .bool includeDiscard)]
  | retain target => tagged "retain" [("target", target.toJson)]
  | copyCard target destination count =>
    tagged "copyCard" [("target", target.toJson), ("destination", destination.toJson),
      ("count", count.toJson)]
  | putOnDeck target position =>
    tagged "putOnDeck" [("target", target.toJson), ("position", position.toJson)]
  | modifyCost amount target =>
    tagged "modifyCost" [("amount", amount.toJson), ("target", target.toJson)]
  | replayCard target times =>
    tagged "replayCard" [("target", target.toJson), ("times", times.toJson)]
  | playTopCard count => tagged "playTopCard" [("count", count.toJson)]
  | discover theme choices destination upgraded =>
    tagged "discover" [("theme", .ofOption Theme.toJson theme),
      ("choices", .ofOption .ofNat choices), ("destination", destination.toJson),
      ("upgraded", .bool upgraded)]
  | scry amount => tagged "scry" [("amount", amount.toJson)]
  | tutor filter destination playerChoice =>
    tagged "tutor" [("filter", .ofOption CardFilter.toJson filter),
      ("destination", destination.toJson), ("playerChoice", .bool playerChoice)]
  | upgrade target => tagged "upgrade" [("target", target.toJson)]
  | transform target theme =>
    tagged "transform" [("target", target.toJson), ("theme", .ofOption Theme.toJson theme)]
  | mill amount => tagged "mill" [("amount", amount.toJson)]
  | createRandomCard theme destination count free upgraded =>
    tagged "createRandomCard" [("theme", .ofOption Theme.toJson theme),
      ("destination", destination.toJson), ("count", count.toJson), ("free", .bool free),
      ("upgraded", .bool upgraded)]
  | setCardFlag target flag value =>
    tagged "setCardFlag" [("target", target.toJson), ("flag", flag.toJson), ("value", .bool value)]
  | addStatusCard cardId destination count =>
    tagged "addStatusCard" [("cardId", .string cardId), ("destination", destination.toJson),
      ("count", count.toJson)]
  | applyPower power amount target duration =>
    tagged "applyPower" [("power", .string power), ("amount", amount.toJson),
      ("target", target.toJson), ("duration", .ofOption .int duration)]
  | removePower power amount target =>
    tagged "removePower" [("power", .string power), ("amount", .ofOption Value.toJson amount),
      ("target", target.toJson)]
  | transferPower power amount giver receiver =>
    tagged "transferPower" [("power", .string power), ("amount", .ofOption Value.toJson amount),
      ("from", giver.toJson), ("to", receiver.toJson)]
  | stealPower power amount target =>
    tagged "stealPower" [("power", .ofOption .string power),
      ("amount", .ofOption Value.toJson amount), ("target", target.toJson)]
  | silencePower power turns target =>
    tagged "silencePower" [("power", .ofOption .string power), ("turns", .ofNat turns),
      ("target", target.toJson)]
  | conditional condition yes no =>
    tagged "conditional" [("condition", condition.toJson), ("then", .array (listToJson yes)),
      ("else", .array (listToJson no))]
  | repeated times effects =>
    tagged "repeat" [("times", times.toJson), ("effects", .array (listToJson effects))]
  | randomChoice choices => tagged "randomChoice" [("choices", .array (branchesToJson choices))]
  | sequence effects => tagged "sequence" [("effects", .array (listToJson effects))]
  | forEach target effects =>
    tagged "forEach" [("target", target.toJson), ("effects", .array (listToJson effects))]

def listToJson : List Effect → List Json
  | [] => []
  | effect :: effects => effect.toJson :: listToJson effects

def branchesToJson : List Branch → List Json
  | [] => []
  | .mk weight effects :: branches =>
    .object [("weight", .single weight), ("effects", .array (listToJson effects))] ::
      branchesToJson branches

end

/-! ## Reading -/

/-- Reads an amount and whom the effect is aimed at. -/
def amountAt (build : Value → Aim → Effect) (default : Aim)
    (members : Members) : Option Effect := do
  return build (← members.required "amount" Value.ofJson?)
    (← members.withDefault "target" default (Aim.read true))

/-- Reads a branch, its effects by `read`. -/
def readBranch (read : Json → Option Effect) (json : Json) : Option Branch := do
  let members ← json.record?
  return .mk (← members.required "weight" Json.single?)
    (← members.required "effects" (Json.list? read))

/-- Reads effects on health and block. -/
def ofCombatTag? (read : Json → Option Effect) : String × Members → Option Effect
  | ("damage", members) => do
    return damage (← members.required "amount" Value.ofJson?)
      (← members.withDefault "target" .enemy (Aim.read true))
      (← members.withDefault "element" .physical (Element.read true))
      (← members.withDefault "piercing" false Json.bool?)
      (← members.withDefault "onHit" [] (Json.list? read))
  | ("block", members) => amountAt block .self members
  | ("barrier", members) => amountAt barrier .self members
  | ("heal", members) => do
    return heal (← members.required "amount" Value.ofJson?)
      (← members.withDefault "target" .self (Aim.read true))
      (← members.withDefault "overheal" false Json.bool?)
  | ("lifesteal", members) => do
    return lifesteal (← members.required "amount" Value.ofJson?)
      (← members.withDefault "target" .enemy (Aim.read true))
      (← members.withDefault "element" .physical (Element.read true))
      (← members.withDefault "percent" 100 Json.signed?)
  | ("destroyBlock", members) => do
    return destroyBlock (← members.withDefault "target" .enemy (Aim.read true))
      (← members.withDefault "includeBarrier" false Json.bool?)
  | ("maxHealth", members) => amountAt maxHealth .self members
  | ("setHealth", members) => amountAt setHealth .self members
  | ("execute", members) => do
    return execute (← members.required "threshold" Json.signed?)
      (← members.withDefault "target" .enemy (Aim.read true))
  | ("splash", members) => do
    return splash (← members.required "amount" Value.ofJson?)
      (← members.withDefault "target" .enemy (Aim.read true))
      (← members.withDefault "element" .physical (Element.read true))
      (← members.withDefault "splashPercent" 50 Json.signed?)
  | ("recoil", members) => do
    return recoil (← members.required "amount" Value.ofJson?)
      (← members.withDefault "target" .enemy (Aim.read true))
      (← members.withDefault "element" .physical (Element.read true))
      (← members.required "recoil" Value.ofJson?)
  | ("counter", members) => amountAt counter .self members
  | ("chain", members) => do
    return chain (← members.required "amount" Value.ofJson?)
      (← members.withDefault "target" .enemy (Aim.read true))
      (← members.withDefault "element" .physical (Element.read true))
      (← members.required "bounces" (Json.unsigned? 32))
      (← members.withDefault "falloffPercent" 75 Json.signed?)
  | ("weakenIntent", members) => amountAt weakenIntent .enemy members
  | ("mark", members) => amountAt mark .enemy members
  | ("reflect", members) => amountAt reflect .self members
  | ("amplify", members) => amountAt amplify .self members
  | _ => none

/-- Reads effects on resources. -/
def ofResourceTag? : String × Members → Option Effect
  | ("energy", members) => do
    return energy (← members.required "amount" Value.ofJson?)
      (← members.withDefault "operation" .gain (Change.read true))
  | ("gold", members) => do
    return gold (← members.required "amount" Value.ofJson?)
      (← members.withDefault "operation" .gain (Change.read true))
  | ("energyNextTurn", members) => do
    return energyNextTurn (← members.required "amount" Value.ofJson?)
  | _ => none

/-- Reads effects that move cards. -/
def ofCardTag? : String × Members → Option Effect
  | ("draw", members) => do return draw (← members.required "amount" Value.ofJson?)
  | ("discard", members) => do
    return discard (← members.withDefault "amount" .one Value.ofJson?)
      (← members.withDefault "target" (.randomFrom .hand) (CardAim.read true))
      (← members.withDefault "playerChoice" false Json.bool?)
  | ("exhaust", members) => do
    return exhaust (← members.withDefault "amount" .one Value.ofJson?)
      (← members.withDefault "target" (.randomFrom .hand) (CardAim.read true))
  | ("banish", members) => do
    return banish (← members.withDefault "amount" .one Value.ofJson?)
      (← members.withDefault "target" .thisCard (CardAim.read true))
      (← members.withDefault "playerChoice" false Json.bool?)
  | ("shuffle", members) => do
    return shuffle (← members.withDefault "includeDiscard" false Json.bool?)
  | ("putOnDeck", members) => do
    return putOnDeck (← members.withDefault "target" .thisCard (CardAim.read true))
      (← members.withDefault "position" .top (Placement.read true))
  | ("replayCard", members) => do
    return replayCard (← members.withDefault "target" .lastPlayed (CardAim.read true))
      (← members.withDefault "times" .one Value.ofJson?)
  | ("playTopCard", members) => do
    return playTopCard (← members.withDefault "count" .one Value.ofJson?)
  | ("scry", members) => do return scry (← members.required "amount" Value.ofJson?)
  | ("tutor", members) => do
    return tutor (← members.optional "filter" (CardFilter.read true))
      (← members.withDefault "destination" .hand (Pile.read true))
      (← members.withDefault "playerChoice" false Json.bool?)
  | ("mill", members) => do return mill (← members.required "amount" Value.ofJson?)
  | _ => none

/-- Reads effects that make or change cards. -/
def ofCraftTag? : String × Members → Option Effect
  | ("addCard", members) => do
    return addCard (← members.required "cardId" Json.string?)
      (← members.withDefault "destination" .hand (Pile.read true))
      (← members.withDefault "count" .one Value.ofJson?)
      (← members.withDefault "upgraded" false Json.bool?)
      (← members.withDefault "position" .bottom (Placement.read true))
  | ("retain", members) => do
    return retain (← members.withDefault "target" .hand (CardAim.read true))
  | ("copyCard", members) => do
    return copyCard (← members.withDefault "target" .thisCard (CardAim.read true))
      (← members.withDefault "destination" .hand (Pile.read true))
      (← members.withDefault "count" .one Value.ofJson?)
  | ("modifyCost", members) => do
    return modifyCost (← members.required "amount" Value.ofJson?)
      (← members.withDefault "target" .hand (CardAim.read true))
  | ("discover", members) => do
    return discover (← members.optional "theme" (Theme.read true))
      (← members.optional "choices" (Json.unsigned? 64))
      (← members.withDefault "destination" .hand (Pile.read true))
      (← members.withDefault "upgraded" false Json.bool?)
  | ("upgrade", members) => do
    return upgrade (← members.withDefault "target" .hand (CardAim.read true))
  | ("transform", members) => do
    return transform (← members.withDefault "target" .thisCard (CardAim.read true))
      (← members.optional "theme" (Theme.read true))
  | ("createRandomCard", members) => do
    return createRandomCard (← members.optional "theme" (Theme.read true))
      (← members.withDefault "destination" .hand (Pile.read true))
      (← members.withDefault "count" .one Value.ofJson?)
      (← members.withDefault "free" false Json.bool?)
      (← members.withDefault "upgraded" false Json.bool?)
  | ("setCardFlag", members) => do
    return setCardFlag (← members.withDefault "target" .thisCard (CardAim.read true))
      (← members.required "flag" (CardFlag.read true))
      (← members.withDefault "value" true Json.bool?)
  | ("addStatusCard", members) => do
    return addStatusCard (← members.required "cardId" Json.string?)
      (← members.withDefault "destination" .discardPile (Pile.read true))
      (← members.withDefault "count" .one Value.ofJson?)
  | _ => none

/-- Reads effects on powers. -/
def ofPowerTag? : String × Members → Option Effect
  | ("applyPower", members) => do
    return applyPower (← members.required "power" Json.string?)
      (← members.required "amount" Value.ofJson?)
      (← members.withDefault "target" .enemy (Aim.read true))
      (← members.optional "duration" Json.signed?)
  | ("removePower", members) => do
    return removePower (← members.required "power" Json.string?)
      (← members.optional "amount" Value.ofJson?)
      (← members.withDefault "target" .self (Aim.read true))
  | ("transferPower", members) => do
    return transferPower (← members.required "power" Json.string?)
      (← members.optional "amount" Value.ofJson?)
      (← members.withDefault "from" .self (Aim.read true))
      (← members.withDefault "to" .enemy (Aim.read true))
  | ("stealPower", members) => do
    return stealPower (← members.optional "power" Json.string?)
      (← members.optional "amount" Value.ofJson?)
      (← members.withDefault "target" .enemy (Aim.read true))
  | ("silencePower", members) => do
    return silencePower (← members.optional "power" Json.string?)
      (← members.withDefault "turns" 1 (Json.unsigned? 32))
      (← members.withDefault "target" .enemy (Aim.read true))
  | _ => none

/-- Reads effects that decide how others are carried out. -/
def ofMetaTag? (read : Json → Option Effect) : String × Members → Option Effect
  | ("conditional", members) => do
    return conditional (← members.required "condition" Condition.ofInner?)
      (← members.required "then" (Json.list? read))
      (← members.withDefault "else" [] (Json.list? read))
  | ("repeat", members) => do
    return repeated (← members.required "times" Value.ofJson?)
      (← members.required "effects" (Json.list? read))
  | ("randomChoice", members) => do
    return randomChoice (← members.required "choices" (Json.list? (readBranch read)))
  | ("sequence", members) => do return sequence (← members.required "effects" (Json.list? read))
  | ("forEach", members) => do
    return forEach (← members.required "target" Subject.ofJson?)
      (← members.required "effects" (Json.list? read))
  | _ => none

/-- Reads an effect, those inside it by `read`. -/
def ofTagged? (read : Json → Option Effect) (json : String × Members) : Option Effect :=
  ofCombatTag? read json <|> ofResourceTag? json <|> ofCardTag? json <|> ofCraftTag? json <|>
    ofPowerTag? json <|> ofMetaTag? read json

/-- Reads an effect from a value nested at most `depth` deep. -/
def read : (depth : Nat) → (inner : Bool) → Json → Option Effect
  | 0, _, _ => none
  | depth + 1, inner, json =>
    (json.tagged? "type" tags inner).bind (ofTagged? (read depth true))

def ofJson? (json : Json) : Option Effect := read json.depth false json

end Effect

namespace Branch

def toJson (branch : Branch) : Json :=
  .object [("weight", .single branch.weight),
    ("effects", .array (Effect.listToJson branch.effects))]

def ofJson? (json : Json) : Option Branch := Effect.readBranch Effect.ofJson? json

end Branch

end CardCombat
