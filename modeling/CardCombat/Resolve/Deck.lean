import CardCombat.Resolve.CardMove

/-!
# The draw pile

Drawing, milling, shuffling and looking ahead. When the draw pile is empty and a card is to be
drawn, the discard pile becomes the new draw pile.
-/

namespace CardCombat.Resolution

/-- Puts the discard pile into the draw pile; how many cards that were. -/
def reshuffle : Resolution Nat := do
  let (moved, piles) ← draw (← combat).piles.reshuffle
  setPiles piles
  record (.merged moved)
  return moved

/-- Takes the top card of the draw pile. -/
def popDraw? : Resolution (Option Card) := do
  match (← combat).piles.popDraw? with
  | none => return none
  | some (card, piles) =>
    setPiles piles
    return some card

/-- Puts a card at the end of the hand. -/
def intoHand (card : Card) : Resolution Unit := do
  let piles := (← combat).piles
  setPiles { piles with hand := piles.hand ++ [card] }

/-- Puts a card under the discard pile. -/
def ontoDiscard (card : Card) : Resolution Unit := do
  let piles := (← combat).piles
  setPiles { piles with discardPile := piles.discardPile ++ [card] }

/-- Puts the discard pile into an empty draw pile. -/
def refill : Resolution Unit := do
  onlyIf (← combat).piles.drawPile.isEmpty do
    let moved ← reshuffle
    onlyIf (moved != 0) do report (.shuffle moved)

/-- Draws one card; whether the hand had room and a card was there. -/
def drawCard (rules : Rules) : Resolution Bool := do
  if rules.config.handLimit ≤ (← combat).piles.size .hand then return false
  else
    refill
    match ← popDraw? with
    | none => return false
    | some card =>
      intoHand card
      return true

/-- Draws at most so many cards. -/
def drawCards (rules : Rules) (count : Nat) : Resolution Unit := do
  let drawn ← upTo count (drawCard rules)
  if drawn != 0 then report (.draw drawn)

/-- Puts the top card of the draw pile under the discard pile. -/
def millCard : Resolution Bool := do
  match ← popDraw? with
  | none => return false
  | some card =>
    ontoDiscard card
    report (.mill card.uid)
    return true

def mill (amount : Value) (ctx : Context) : Resolution Unit := do
  discard (upTo (← count amount ctx) millCard)

/-- Rearranges the draw pile, or puts the discard pile into it. -/
def rearrange (includeDiscard : Bool) : Resolution Unit := do
  if includeDiscard then discard reshuffle
  else setPiles (← draw ((← combat).piles.shuffle .drawPile))

/-- Shuffles the draw pile, or the discard pile into it. -/
def shuffle (includeDiscard : Bool) : Resolution Unit := do
  rearrange includeDiscard
  let count := (← combat).piles.size .drawPile
  onlyIf (count != 0) do report (.shuffle count)

/-- Lets the player look at the top cards of the draw pile and discard any of them. -/
def scry (amount : Value) (ctx : Context) : Resolution Unit := do
  let top := (← combat).piles.drawPile.take (← count amount ctx)
  ask .scry top 0 top.length

end CardCombat.Resolution
