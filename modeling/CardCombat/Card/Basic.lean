import CardCombat.Number.Checked

/-!
# Cards

A card in play is an instance: a number that tells it from every other card of a combat, the name
of its definition, and what was laid over the definition during the combat. What the definition
says of all such cards is in `CardCombat.Card.Definition`.
-/

namespace CardCombat

/-- The name of a card definition. -/
abbrev CardId := String

/-- The number of a card. -/
structure CardUid where
  number : Nat
  deriving Repr, DecidableEq, Inhabited

/-- What kind of card a definition is of. -/
inductive Theme where
  | attack
  | skill
  | power
  | status
  | curse
  deriving Repr, DecidableEq

inductive Rarity where
  | starter
  | common
  | uncommon
  | rare
  | special
  deriving Repr, DecidableEq

/-- What playing a card takes: a fixed amount of energy, or all of it. -/
inductive Cost where
  | fixed (amount : Int)
  | x
  deriving Repr, DecidableEq

structure Keywords where
  exhaust : Bool := false
  retain : Bool := false
  ethereal : Bool := false
  innate : Bool := false
  unplayable : Bool := false
  deriving Repr, DecidableEq

/-- A card. -/
structure Card where
  uid : CardUid
  definition : CardId
  upgraded : Bool := false
  retained : Bool := false
  ethereal : Bool := false
  innate : Bool := false
  unplayable : Bool := false
  costModifier : Int := 0
  deriving Repr, DecidableEq

/-- The properties that can be laid over a card. -/
inductive CardFlag where
  | innate
  | ethereal
  | unplayable
  | retained
  deriving Repr, DecidableEq

def CardUid.text (uid : CardUid) : String := "#" ++ toString uid.number

namespace Theme

def all : List Theme := [.attack, .skill, .power, .status, .curse]

def name : Theme → String
  | .attack => "attack"
  | .skill => "skill"
  | .power => "power"
  | .status => "status"
  | .curse => "curse"

end Theme

/-- Unless something else is said a card is common. -/
instance : Inhabited Rarity := ⟨.common⟩

/-- A card for which nothing is said costs nothing. -/
instance : Inhabited Cost := ⟨.fixed 0⟩

namespace Rarity

def all : List Rarity := [.starter, .common, .uncommon, .rare, .special]

def name : Rarity → String
  | .starter => "starter"
  | .common => "common"
  | .uncommon => "uncommon"
  | .rare => "rare"
  | .special => "special"

end Rarity

namespace CardFlag

def all : List CardFlag := [.innate, .ethereal, .unplayable, .retained]

def name : CardFlag → String
  | .innate => "innate"
  | .ethereal => "ethereal"
  | .unplayable => "unplayable"
  | .retained => "retained"

end CardFlag

namespace Card

/-- The same card under another number. -/
def withUid (card : Card) (uid : CardUid) : Card := { card with uid }

/-- Sets one of the properties that can be laid over a card. -/
def setFlag (card : Card) (flag : CardFlag) (value : Bool) : Card :=
  match flag with
  | .innate => { card with innate := value }
  | .ethereal => { card with ethereal := value }
  | .unplayable => { card with unplayable := value }
  | .retained => { card with retained := value }

end Card

end CardCombat
