import CardCombat.Resolve.Context

/-!
# Finding cards

Which cards an aim finds in a combat, at most so many if there is a limit. An aim at random cards
draws as many as the limit says, or one. Finding cards can only move the
generator, and it can fail only where the cost of a card does not fit.
-/

namespace CardCombat

/-- The smaller of two bounds, of which either may be missing. -/
def tighter : Option Nat → Option Nat → Option Nat
  | some a, some b => some (min a b)
  | a, b => a <|> b

/-- The first cards up to a limit. -/
def upToLimit (limit : Option Nat) (cards : List Card) : List Card :=
  (limit.map cards.take).getD cards

/-- A drawing as part of a search that may fail. -/
def Draw.search {α : Type} (draw : Draw α) : StateT Rng (Except Fault) α :=
  fun rng => .ok (draw.run rng)

/-- Whether a filter accepts a card. A card without a definition is accepted only by a filter that
asks neither for a theme nor for a cost. -/
def CardFilter.accepts (filter : CardFilter) (cards : Catalog CardDefinition) (combat : Combat)
    (card : Card) : Except Fault Bool :=
  if filter.theme.isNone && filter.maxCost.isNone then return true
  else
    match cards.find? card.definition with
    | none => return false
    | some definition => do
      let affordable ← match filter.maxCost with
        | some maxCost =>
          pure (decide ((← card.costToPlay definition combat.resources.energy) ≤ maxCost))
        | none => pure true
      return filter.theme.all (definition.theme == ·) && affordable

mutual

/-- The cards that an aim finds. -/
def CardAim.find (cards : Catalog CardDefinition) (combat : Combat) (ctx : Context)
    (limit : Option Nat) : CardAim → StateT Rng (Except Fault) (List Card)
  | .hand => return upToLimit limit combat.piles.hand
  | .drawPile => return upToLimit limit combat.piles.drawPile
  | .discardPile => return upToLimit limit combat.piles.discardPile
  | .exhaustPile => return upToLimit limit combat.piles.exhaustPile
  | .leftmostHand => return upToLimit limit combat.piles.hand.head?.toList
  | .rightmostHand => return upToLimit limit combat.piles.hand.getLast?.toList
  | .topOfDraw => return upToLimit limit combat.piles.drawPile.head?.toList
  | .randomFrom pile => (Draw.sample (combat.piles.get pile) (limit.getD 1)).search
  | .thisCard => return upToLimit limit (ctx.card.bind combat.card?).toList
  | .lastPlayed => return upToLimit limit combat.lastPlayed.toList
  | .current => return upToLimit limit ctx.currentCard.toList
  | .filtered filter => filter.find cards combat ctx limit

/-- The cards that a filter leaves over. -/
def CardFilter.find (cards : Catalog CardDefinition) (combat : Combat) (ctx : Context)
    (limit : Option Nat) : CardFilter → StateT Rng (Except Fault) (List Card)
  | .mk base count random theme maxCost => do
    let filter := CardFilter.mk base count random theme maxCost
    let found ← base.find cards combat ctx none
    let accepted ← found.filterM fun card => liftM (filter.accepts cards combat card)
    let limit := tighter count limit
    if random then (Draw.sample accepted (limit.getD accepted.length)).search
    else return upToLimit limit accepted

end

end CardCombat
