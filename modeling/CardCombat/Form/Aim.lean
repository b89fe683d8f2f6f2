import CardCombat.Form.Names

/-!
# Written forms of amounts, targets and conditions

A fixed amount is written as its number, any other as a tagged value. A card target is written by
its name or, if it has a part, as an object with its name as the only key. Conditions are tagged.

Filters and conditions contain others; reading goes down one step of `depth` at a time, and the
depth of the JSON value is always enough.
-/

namespace CardCombat

/-! ## Amounts -/

namespace Value

def toJson : Value → Json
  | fixed amount => .int amount
  | range min max => .object [("type", .string "range"), ("min", .int min), ("max", .int max)]
  | scaled base perUnit source max =>
    .object [("type", .string "scaled"), ("base", .int base), ("perUnit", .double perUnit),
      ("source", source.toJson), ("max", .ofOption .int max)]
  | powerAmount => .object [("type", .string "powerAmount")]

/-- Reads a rule for an amount. -/
def ofTagged? : String × Members → Option Value
  | ("range", members) => do
    return range (← members.required "min" Json.signed?) (← members.required "max" Json.signed?)
  | ("scaled", members) => do
    return scaled (← members.withDefault "base" 0 Json.signed?)
      (← members.required "perUnit" Json.double?)
      (← members.required "source" (Measure.read true))
      (← members.optional "max" Json.signed?)
  | ("powerAmount", _) => some powerAmount
  | _ => none

def ofJson? (json : Json) : Option Value :=
  match json.signed? with
  | some amount => some (fixed amount)
  | none => (json.tagged? "type" tags true).bind ofTagged?

end Value

/-! ## Card targets -/

namespace CardAim

/-- The aims without parts, with their names. -/
def plain : List (String × CardAim) :=
  [("hand", .hand), ("drawPile", .drawPile), ("discardPile", .discardPile),
    ("exhaustPile", .exhaustPile), ("leftmostHand", .leftmostHand),
    ("rightmostHand", .rightmostHand), ("topOfDraw", .topOfDraw), ("thisCard", .thisCard),
    ("lastPlayed", .lastPlayed), ("current", .current)]

mutual

def toJson : CardAim → Json
  | hand => .string "hand"
  | drawPile => .string "drawPile"
  | discardPile => .string "discardPile"
  | exhaustPile => .string "exhaustPile"
  | leftmostHand => .string "leftmostHand"
  | rightmostHand => .string "rightmostHand"
  | topOfDraw => .string "topOfDraw"
  | randomFrom pile => .object [("randomFrom", pile.toJson)]
  | thisCard => .string "thisCard"
  | lastPlayed => .string "lastPlayed"
  | current => .string "current"
  | filtered filter => .object [("filtered", filterToJson filter)]

def filterToJson : CardFilter → Json
  | .mk base count random theme maxCost =>
    .object [("base", toJson base), ("count", .ofOption .ofNat count), ("random", .bool random),
      ("theme", .ofOption Theme.toJson theme), ("maxCost", .ofOption .int maxCost)]

end

/-- Reads a filter, its base by `read`. -/
def readFilter (inner : Bool) (read : Json → Option CardAim) (json : Json) :
    Option CardFilter := do
  let members ← json.record?
  return .mk (← members.required "base" read)
    (← members.optional "count" (Json.unsigned? 64))
    (← members.withDefault "random" false Json.bool?)
    (← members.optional "theme" (Theme.read inner))
    (← members.optional "maxCost" Json.signed?)

/-- Reads an aim whose filters are nested at most `depth` deep. -/
def readWithin (inner : Bool) : (depth : Nat) → Json → Option CardAim
  | 0, json => (json.named? inner (·.1) plain).map (·.2)
  | depth + 1, json =>
    (json.named? inner (·.1) plain).map (·.2) <|>
      json.wrapped? "randomFrom" (fun json => (Pile.read inner json).map randomFrom) <|>
      json.wrapped? "filtered" (fun json =>
        (readFilter inner (readWithin inner depth) json).map filtered)

/-- Reads an aim; `inner` says that it is inside a tagged value. -/
def read (inner : Bool) (json : Json) : Option CardAim := readWithin inner json.depth json

def ofJson? : Json → Option CardAim := read false

end CardAim

namespace CardFilter

def toJson (filter : CardFilter) : Json := CardAim.filterToJson filter

/-- Reads a filter; `inner` says that it is inside a tagged value. -/
def read (inner : Bool) (json : Json) : Option CardFilter :=
  CardAim.readFilter inner (CardAim.read inner) json

def ofJson? : Json → Option CardFilter := read false

end CardFilter

namespace Subject

def toJson : Subject → Json
  | combatant target => target.toJson
  | card target => target.toJson

/-- Reads a subject. It is tried as an aim of either kind, and inside a tagged value nothing may be
written more freely than elsewhere. -/
def ofJson? (json : Json) : Option Subject :=
  if json.readable then
    (Aim.ofJson? json).map combatant <|> (CardAim.ofJson? json).map card
  else none

end Subject

/-! ## Conditions -/

namespace Condition

mutual

def toJson : Condition → Json
  | health target form op value =>
    .object [("type", .string "health"), ("target", target.toJson), ("form", form.toJson),
      ("op", op.toJson), ("value", .int value)]
  | resource quantity op value =>
    .object [("type", .string "resource"), ("resource", quantity.toJson), ("op", op.toJson),
      ("value", .int value)]
  | pileCount pile op value =>
    .object [("type", .string "pileCount"), ("pile", pile.toJson), ("op", op.toJson),
      ("value", .int value)]
  | turn op value => .object [("type", .string "turn"), ("op", op.toJson), ("value", .int value)]
  | enemyCount op value =>
    .object [("type", .string "enemyCount"), ("op", op.toJson), ("value", .int value)]
  | hasPower target power min =>
    .object [("type", .string "hasPower"), ("target", target.toJson), ("power", .string power),
      ("min", .int min)]
  | and conditions =>
    .object [("type", .string "and"), ("conditions", .array (listToJson conditions))]
  | or conditions =>
    .object [("type", .string "or"), ("conditions", .array (listToJson conditions))]
  | not condition => .object [("type", .string "not"), ("condition", condition.toJson)]

def listToJson : List Condition → List Json
  | [] => []
  | condition :: conditions => condition.toJson :: listToJson conditions

end

/-- Reads a condition, those inside it by `read`. -/
def ofTagged? (read : Json → Option Condition) : String × Members → Option Condition
  | ("health", members) => do
    return health (← members.withDefault "target" .self (Aim.read true))
      (← members.withDefault "form" .current (HealthMeasure.read true))
      (← members.required "op" (Comparison.read true)) (← members.required "value" Json.signed?)
  | ("resource", members) => do
    return resource (← members.required "resource" (Resource.read true))
      (← members.required "op" (Comparison.read true)) (← members.required "value" Json.signed?)
  | ("pileCount", members) => do
    return pileCount (← members.required "pile" (Pile.read true))
      (← members.required "op" (Comparison.read true)) (← members.required "value" Json.signed?)
  | ("turn", members) => do
    return turn (← members.required "op" (Comparison.read true))
      (← members.required "value" Json.signed?)
  | ("enemyCount", members) => do
    return enemyCount (← members.required "op" (Comparison.read true))
      (← members.required "value" Json.signed?)
  | ("hasPower", members) => do
    return hasPower (← members.withDefault "target" .self (Aim.read true))
      (← members.required "power" Json.string?) (← members.withDefault "min" 1 Json.signed?)
  | ("and", members) => do return and (← members.required "conditions" (Json.list? read))
  | ("or", members) => do return or (← members.required "conditions" (Json.list? read))
  | ("not", members) => do return not (← members.required "condition" read)
  | _ => none

/-- Reads a condition from a value nested at most `depth` deep. -/
def read : (depth : Nat) → (inner : Bool) → Json → Option Condition
  | 0, _, _ => none
  | depth + 1, inner, json =>
    (json.tagged? "type" tags inner).bind (ofTagged? (read depth true))

/-- Reads a condition that is part of another value. -/
def ofInner? (json : Json) : Option Condition := read json.depth true json

def ofJson? (json : Json) : Option Condition := read json.depth false json

end Condition

end CardCombat
