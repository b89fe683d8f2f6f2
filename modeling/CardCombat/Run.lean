import CardCombat.Combat.Chronicle

/-!
# Runs

A run is what lasts from one combat to the next: health, gold, the master deck, relics, totals and
the generator. While a combat goes on it is part of the run.

What effects can reach of a run with a combat is its `Scene`: the combat, the gold, the totals, the
relics and the generator. The scene also holds the chronicle of the resolution that changes it, and
the run keeps that of the last one; no rule reads either.
-/

namespace CardCombat

/-- The name of a relic definition. -/
abbrev RelicId := String

structure Stats where
  damageDealt : Nat := 0
  damageTaken : Nat := 0
  cardsPlayed : Nat := 0
  enemiesKilled : Nat := 0
  goldEarned : Nat := 0
  combatsWon : Nat := 0
  deriving Repr, DecidableEq

structure Run where
  hero : String
  health : Int
  maxHealth : Int
  gold : Int := 0
  deck : List Card := []
  relics : List RelicId := []
  floor : Nat := 0
  stats : Stats := {}
  combat : Option Combat := none
  rng : Rng
  /-- What was written down in the last resolution. -/
  chronicle : Array Deed := #[]

/-- The part of a run that effects can reach. -/
structure Scene where
  combat : Combat
  gold : Int
  stats : Stats
  relics : List RelicId
  rng : Rng
  chronicle : Array Deed := #[]

namespace Run

/-- A run in full health with an empty deck. -/
def ofHero (hero : String) (maxHealth : Int) (seed : UInt64) : Run :=
  { hero, health := maxHealth, maxHealth, rng := .ofSeed seed }

/-- The first number above those of the master deck. -/
def nextCardUid (run : Run) : Except Fault Nat := do
  let numbers ← run.deck.mapM fun card => Unsigned.add 64 card.uid.number 1
  return (numbers.max?).getD 1

/-- Adds a new card to the master deck; its number. -/
def addToDeck (run : Run) (definition : CardId) (upgraded : Bool) :
    Except Fault (CardUid × Run) := do
  let uid : CardUid := ⟨← run.nextCardUid⟩
  return (uid, { run with deck := run.deck ++ [{ uid, definition, upgraded }] })

/-- The scene of a run with a combat. -/
def scene? (run : Run) : Option Scene := do
  return { combat := ← run.combat, gold := run.gold, stats := run.stats, relics := run.relics
           rng := run.rng }

/-- The run after its scene was changed. -/
def withScene (run : Run) (scene : Scene) : Run :=
  { run with combat := some scene.combat, gold := scene.gold, stats := scene.stats
             rng := scene.rng, chronicle := scene.chronicle }

/-- Fetches the events of the combat. -/
def drain (run : Run) : Array Event × Run :=
  match run.combat with
  | none => (#[], run)
  | some combat =>
    let (events, combat) := combat.drain
    (events, { run with combat := some combat })

end Run

end CardCombat
