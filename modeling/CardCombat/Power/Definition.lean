import CardCombat.Card.Definition

/-!
# Power definitions

A power is a stack that a combatant holds. Its definition says how stacks are joined, when they
decay, how they modify damage and block, and what they do when something happens.
-/

namespace CardCombat

/-- Something that happens to a combatant, on which powers and relics act. -/
inductive Occasion where
  | combatStart
  | turnStart
  | turnEnd
  | attack
  | attacked
  | damaged
  | block
  | cardPlayed
  | attackPlayed
  | skillPlayed
  | powerPlayed
  | death
  | kill
  deriving Repr, DecidableEq

/-- Effects that are carried out on an occasion. -/
structure Trigger where
  occasion : Occasion
  effects : List Effect

inductive PowerKind where
  | buff
  | debuff
  deriving Repr, DecidableEq

/-- What happens when a power is given to someone who holds it. -/
inductive Stacking where
  /-- The stacks are added. -/
  | intensity
  /-- The larger stack stays. -/
  | duration
  /-- The stacks are added and the longer duration stays. -/
  | both
  deriving Repr, DecidableEq

/-- A boundary of a turn. -/
inductive Boundary where
  | turnStart
  | turnEnd
  deriving Repr, DecidableEq

structure Decay where
  boundary : Boundary
  /-- Whether the whole stack goes, and not one of it. -/
  removeAll : Bool := false
  deriving Repr, DecidableEq

/-- A change of an amount: so much for each stack, and a percentage. -/
structure Modifier where
  flat : Int := 0
  percent : Int := 0
  deriving Repr, DecidableEq

structure Modifiers where
  outgoing : Modifier := {}
  incoming : Modifier := {}
  block : Modifier := {}
  deriving Repr, DecidableEq

structure PowerDefinition where
  id : PowerId
  name : String
  kind : PowerKind
  stacking : Stacking
  /-- Whether the power goes when its stack is not positive. -/
  removeAtZero : Bool := false
  decay : Option Decay := none
  modifiers : Modifiers := {}
  triggers : List Trigger := []

namespace Occasion

def all : List Occasion :=
  [.combatStart, .turnStart, .turnEnd, .attack, .attacked, .damaged, .block, .cardPlayed,
    .attackPlayed, .skillPlayed, .powerPlayed, .death, .kill]

def name : Occasion → String
  | .combatStart => "combatStart"
  | .turnStart => "turnStart"
  | .turnEnd => "turnEnd"
  | .attack => "attack"
  | .attacked => "attacked"
  | .damaged => "damaged"
  | .block => "block"
  | .cardPlayed => "cardPlayed"
  | .attackPlayed => "attackPlayed"
  | .skillPlayed => "skillPlayed"
  | .powerPlayed => "powerPlayed"
  | .death => "death"
  | .kill => "kill"

/-- The name as a title. -/
def title (occasion : Occasion) : String := occasion.name.capitalize

/-- The occasion of playing a card of a theme. -/
def ofTheme? : Theme → Option Occasion
  | .attack => some .attackPlayed
  | .skill => some .skillPlayed
  | .power => some .powerPlayed
  | .status | .curse => none

end Occasion

namespace PowerKind

def all : List PowerKind := [.buff, .debuff]

def name : PowerKind → String
  | .buff => "buff"
  | .debuff => "debuff"

end PowerKind

namespace Stacking

def all : List Stacking := [.intensity, .duration, .both]

def name : Stacking → String
  | .intensity => "intensity"
  | .duration => "duration"
  | .both => "both"

end Stacking

namespace Boundary

def all : List Boundary := [.turnStart, .turnEnd]

def name : Boundary → String
  | .turnStart => "turnStart"
  | .turnEnd => "turnEnd"

end Boundary

/-- The effects of the triggers of an occasion, one list for each trigger. -/
def Trigger.on (occasion : Occasion) (triggers : List Trigger) : List (List Effect) :=
  (triggers.filter (·.occasion == occasion)).map (·.effects)

namespace PowerDefinition

/-- A definition that does nothing, with its name taken from its identifier. -/
def plain (id : PowerId) (kind : PowerKind) (stacking : Stacking) : PowerDefinition :=
  { id, name := id.capitalize, kind, stacking }

def triggersOn (definition : PowerDefinition) (occasion : Occasion) : List (List Effect) :=
  Trigger.on occasion definition.triggers

end PowerDefinition

end CardCombat
