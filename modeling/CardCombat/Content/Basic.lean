import CardCombat.Content.Template
import CardCombat.Power.Builtin

/-!
# Content

The catalogs of everything that a combat can refer to. Content starts with the built-in powers and
grows by packs; after a pack was added all references must lead somewhere.

A pack is added card by card. If a card is already there the cards before it stay.
-/

namespace CardCombat

structure Content where
  cards : Catalog CardDefinition := .empty
  powers : Catalog PowerDefinition := .builtinPowers
  enemies : Catalog EnemyTemplate := .empty
  heroes : Catalog HeroTemplate := .empty
  relics : Catalog RelicDefinition := .empty

/-- A bundle of definitions. -/
structure Pack where
  cards : List CardDefinition := []
  powers : List PowerDefinition := []
  enemies : List EnemyTemplate := []
  heroes : List HeroTemplate := []
  relics : List RelicDefinition := []

/-- Why content is refused, or something asked of it is not there. -/
inductive ContentError where
  | malformed
  | duplicateCard (card : CardId)
  | duplicatePower (power : PowerId)
  | unknownCard (owner : String) (card : CardId)
  | unknownPower (owner : String) (power : PowerId)
  | unknownRelic (owner : String) (relic : RelicId)
  | unknownEnemy (enemy : String)
  | unknownHero (hero : String)
  deriving Repr, DecidableEq

namespace ContentError

/-- The name of the error, for programs that tell errors apart. -/
def name : ContentError → String
  | malformed => "Json"
  | duplicateCard .. => "DuplicateCard"
  | duplicatePower .. => "DuplicatePower"
  | unknownCard .. => "UnknownCard"
  | unknownPower .. => "UnknownPower"
  | unknownRelic .. => "UnknownRelic"
  | unknownEnemy .. => "UnknownEnemy"
  | unknownHero .. => "UnknownHero"

def message : ContentError → String
  | malformed => "malformed content"
  | duplicateCard card => "duplicate card `" ++ card ++ "`"
  | duplicatePower power => "duplicate power `" ++ power ++ "`"
  | unknownCard owner card => "`" ++ owner ++ "` references unknown card `" ++ card ++ "`"
  | unknownPower owner power => "`" ++ owner ++ "` references unknown power `" ++ power ++ "`"
  | unknownRelic owner relic => "`" ++ owner ++ "` references unknown relic `" ++ relic ++ "`"
  | unknownEnemy enemy => "unknown enemy `" ++ enemy ++ "`"
  | unknownHero hero => "unknown hero `" ++ hero ++ "`"

end ContentError

namespace Content

instance : Inhabited Content := ⟨{}⟩

/-! ## Adding -/

def addCard (content : Content) (card : CardDefinition) : Except ContentError Content :=
  match content.cards.register? card.id card with
  | some cards => .ok { content with cards }
  | none => .error (.duplicateCard card.id)

/-- Adds a power, in the place of one with its name. -/
def addPower (content : Content) (power : PowerDefinition) : Content :=
  { content with powers := content.powers.put power.id power }

/-- Adds an enemy, in the place of one with its name. -/
def addEnemy (content : Content) (enemy : EnemyTemplate) : Content :=
  { content with enemies := content.enemies.put enemy.id enemy }

/-- Adds a hero, in the place of one with its name. -/
def addHero (content : Content) (hero : HeroTemplate) : Content :=
  { content with heroes := content.heroes.put hero.id hero }

/-- Adds a relic, in the place of one with its name. -/
def addRelic (content : Content) (relic : RelicDefinition) : Content :=
  { content with relics := content.relics.put relic.id relic }

/-- Adds cards up to the first whose name is taken. -/
def addCards (content : Content) : List CardDefinition → Content × Option ContentError
  | [] => (content, none)
  | card :: cards =>
    match content.addCard card with
    | .ok content => content.addCards cards
    | .error error => (content, some error)

/-- Adds everything in a pack behind its cards. -/
def addRest (content : Content) (pack : Pack) : Content :=
  let content := pack.powers.foldl addPower content
  let content := pack.enemies.foldl addEnemy content
  let content := pack.heroes.foldl addHero content
  pack.relics.foldl addRelic content

/-- The relics of a list that are known. -/
def relicsOf (content : Content) (relics : List RelicId) : List RelicDefinition :=
  relics.filterMap content.relics.find?

end Content

end CardCombat
