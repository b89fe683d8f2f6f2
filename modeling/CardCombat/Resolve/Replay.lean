import CardCombat.Resolve.Deck

/-!
# Playing cards again

The effects that carry out the effects of a card: one that was played before, or the top card of
the draw pile.
-/

namespace CardCombat.Resolution

variable (rules : Rules) (nested : List Effect → Context → Resolution Unit)

/-- Carries out the effects of the cards that are aimed at so many times. -/
def replayCards (target : CardAim) (repetitions : Value) (ctx : Context) :
    Resolution Unit := do
  let repetitions ← count repetitions ctx
  forCards rules target none ctx fun card => do
    match rules.content.cards.find? card.definition with
    | none => return
    | some definition =>
      times repetitions do
        report (.replay card.uid)
        nested (definition.effectsWhen card.upgraded) (← ctx.ofReplay card.uid)

/-- The definition of a card that can be played. -/
def playableDefinition? (card : Card) : Option CardDefinition :=
  (rules.content.cards.find? card.definition).filter (!card.cannotBePlayed ·)

/-- Plays a card off the deck, aimed at a random enemy. -/
def playOffDeck (card : Card) (definition : CardDefinition) (ctx : Context) :
    Resolution Unit := do
  let target ← draw (Draw.choose (← combat).livingEnemyIds)
  report (.replay card.uid)
  modifyCombat (·.pushInPlay card)
  nested (definition.effectsWhen card.upgraded) { ← ctx.ofReplay card.uid with target }
  endPlay rules card.uid

/-- Plays the top card of the draw pile, or discards it if it cannot be played; whether there was a
card. -/
def playTop (ctx : Context) : Resolution Bool := do
  onlyIf (← combat).piles.drawPile.isEmpty do discard reshuffle
  match ← popDraw? with
  | none => return false
  | some card =>
    match playableDefinition? rules card with
    | some definition => playOffDeck rules nested card definition ctx
    | none =>
      ontoDiscard card
      report (.discard card.uid)
    return true

/-- Plays at most so many cards off the deck. -/
def playTopCards (number : Value) (ctx : Context) : Resolution Unit := do
  discard (upTo (← count number ctx) (playTop rules nested ctx))

end CardCombat.Resolution
