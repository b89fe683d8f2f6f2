import CardCombat.Content.Validation

/-!
# The starter content

A small pack with which a run can be played: a hero, seventeen cards, four enemies and three relics.
-/

namespace CardCombat.Starter

private def attackCard (id name : String) (cost : Int) (effects : List Effect) : CardDefinition :=
  { id, name, theme := .attack, cost := .fixed cost, effects }

private def skillCard (id name : String) (cost : Int) (effects : List Effect) : CardDefinition :=
  { id, name, theme := .skill, cost := .fixed cost, effects }

/-- A hit of a fixed amount. -/
private def deal (amount : Int) (target : Aim) (element : Element := .physical) : Effect :=
  .hit (.fixed amount) target element

/-- Block for whoever carries out the effect. -/
private def guard (amount : Int) : Effect := .block (.fixed amount) .self

private def give (power : PowerId) (amount : Int) (target : Aim) : Effect :=
  .grant power (.fixed amount) target

def cards : List CardDefinition :=
  [{ attackCard "strike" "Strike" 1 [deal 6 .enemy] with
      rarity := .starter, upgradedEffects := some [deal 9 .enemy] },
    { skillCard "defend" "Defend" 1 [guard 5] with
      rarity := .starter, upgradedEffects := some [guard 8] },
    { attackCard "bash" "Bash" 2 [deal 8 .enemy, give "vulnerable" 2 .enemy] with
      rarity := .starter },
    attackCard "fireball" "Fireball" 1 [deal 7 .enemy .fire],
    attackCard "frostBolt" "Frost Bolt" 1 [deal 5 .enemy .ice],
    attackCard "zap" "Zap" 1 [deal 4 .enemy .lightning],
    skillCard "oilFlask" "Oil Flask" 1 [deal 3 .enemy .void],
    skillCard "downpour" "Downpour" 1 [give "wet" 2 .allEnemies],
    { id := "whirlwind", name := "Whirlwind", theme := .attack, cost := .x
      effects := [.repeated (.scaled 0 1 .xCost none) [deal 5 .allEnemies]] },
    { id := "inflame", name := "Inflame", theme := .power, cost := .fixed 1
      effects := [give "strength" 2 .self] },
    skillCard "shrugItOff" "Shrug It Off" 1 [guard 8, .draw (.fixed 1)],
    skillCard "battleTrance" "Battle Trance" 0 [.draw (.fixed 3)],
    attackCard "chainLightning" "Chain Lightning" 2 [.chain (.fixed 8) .enemy .lightning 2 75],
    attackCard "bite" "Bite" 1 [.lifesteal (.fixed 7) .enemy .physical 100],
    { attackCard "guillotine" "Guillotine" 2 [.execute 25 .enemy] with
      keywords := { exhaust := true } },
    { skillCard "ghostlyArmor" "Ghostly Armor" 1 [guard 10] with
      keywords := { ethereal := true } },
    { id := "wound", name := "Wound", theme := .status, cost := .fixed 0, rarity := .special
      keywords := { unplayable := true } }]

def enemies : List EnemyTemplate :=
  [{ id := "slime", name := "Slime", maxHealth := 20
     moves :=
      [{ name := "Tackle", kind := .attack, effects := [deal 6 .player] },
        { name := "Harden", kind := .defend, effects := [guard 5] }] },
    { id := "cultist", name := "Cultist", maxHealth := 48
      moves :=
        [{ name := "Incantation", kind := .buff, effects := [give "ritual" 3 .self] },
          { name := "Dark Strike", kind := .attack, weight := 2, effects := [deal 6 .player] }] },
    { id := "fireImp", name := "Fire Imp", maxHealth := 24
      vulnerabilities := [.ice], resistances := [.fire]
      moves := [{ name := "Scorch", kind := .attack, effects := [deal 4 .player .fire] }] },
    { id := "gremlin", name := "Gremlin", maxHealth := 15
      startingPowers := [⟨"thorns", 1⟩]
      moves :=
        [{ name := "Smash", kind := .attack
           effects := [deal 4 .player, .addStatusCard "wound" .discardPile (.fixed 1)] },
          { name := "Cower", kind := .debuff, effects := [give "weak" 1 .player] }] }]

def knight : HeroTemplate :=
  { id := "knight", name := "Knight", maxHealth := 70
    startingDeck := List.replicate 5 "strike" ++ List.replicate 4 "defend" ++ ["bash"]
    startingRelics := ["anchor"]
    ability := some
      { name := "Rally", chargeRequired := 5, effects := [guard 8, .draw (.fixed 2)] } }

def relics : List RelicDefinition :=
  [{ id := "anchor", name := "Anchor", triggers := [⟨.combatStart, [guard 10]⟩] },
    { id := "vajra", name := "Vajra", triggers := [⟨.combatStart, [give "strength" 1 .self]⟩] },
    { id := "bloodVial", name := "Blood Vial"
      triggers := [⟨.kill, [.mend (.fixed 2) .self]⟩] }]

/-- The starter pack. -/
def pack : Pack := { cards, enemies, heroes := [knight], relics }

/-- The starter content. -/
def content : Except ContentError Content := Content.ofPack pack

end CardCombat.Starter
