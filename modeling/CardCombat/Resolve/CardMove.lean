import CardCombat.Resolve.Basic

/-!
# Moving cards

The ways in which cards change their places. A card that is being played lies in no pile: moving it
says where it goes, or has gone, when the play is over. A hand that is full takes no card; what
should come into it goes to the discard pile.
-/

namespace CardCombat.Resolution

/-! ## Arriving -/

/-- Puts a card into a pile, or into the discard pile if it is to come into a full hand; the pile
into which it came. -/
def place (rules : Rules) (card : Card) (pile : Pile) (placement : Placement) :
    Resolution Pile := do
  let piles := (← combat).piles
  let isFull := decide (rules.config.handLimit ≤ piles.size .hand)
  let pile := if pile == .hand && isFull then .discardPile else pile
  setPiles (← draw (piles.put pile card placement))
  record (.landed card.uid pile)
  return pile

/-- Puts a card that is new to the player into a pile and reports it. -/
def placeNew (rules : Rules) (card : Card) (pile : Pile) (placement : Placement) :
    Resolution Unit := do
  let pile ← place rules card pile placement
  report (.addCard card.uid card.definition pile)

/-- A number that no card of the combat has had. -/
def newUid : Resolution CardUid := do
  let (uid, combat) ← (← combat).issueCardUid
  modifyCombat fun _ => combat
  return uid

/-- Makes a card. -/
def makeCard (definition : CardId) (upgraded : Bool) : Resolution Card :=
  return { uid := ← newUid, definition, upgraded }

/-! ## Leaving -/

/-- Says where a card in play goes; whether there is such a card. -/
def setRoute (uid : CardUid) (route : Route) : Resolution (Option Card) := do
  match (← combat).findInPlay? uid with
  | none => return none
  | some entry =>
    modifyCombat (·.modifyInPlay uid fun entry => { entry with route := some route })
    record (.routed uid entry.route route)
    return some entry.card

/-- Moves a card from wherever it lies to a pile; the pile it came from. -/
def moveTo (uid : CardUid) (pile : Pile) : Resolution (Option Pile) := do
  let (source, piles) ← draw ((← combat).piles.move uid pile .bottom)
  setPiles piles
  onlyIf source.isSome do record (.landed uid pile)
  return source

/-- Moves a card, in play or in a pile, to a place in a pile; the pile into which it came, nothing
if there is no such card. -/
def bring (rules : Rules) (uid : CardUid) (pile : Pile) (placement : Placement) :
    Resolution (Option Pile) := do
  match ← setRoute uid .elsewhere with
  | some card => return some (← place rules card pile placement)
  | none =>
    match (← combat).piles.take? uid with
    | none => return none
    | some (_, card, piles) =>
      setPiles piles
      return some (← place rules card pile placement)

/-- Moves a card to a pile unless it lies there already; whether it was moved. -/
def retireTo (uid : CardUid) (pile : Pile) : Resolution Bool := do
  if (← combat).piles.contains pile uid then return false
  return (← moveTo uid pile).isSome

/-- Takes a card out of the combat; whether there was one. -/
def remove (uid : CardUid) : Resolution Bool := do
  match (← combat).piles.take? uid with
  | none => return false
  | some (_, _, piles) =>
    setPiles piles
    record (.removed uid)
    return true

/-- Sends a card away: one in play when its play is over, one in a pile at once. Whether there was
anything to do. -/
def sendAway (uid : CardUid) (route : Route) (ofPile : Resolution Bool) : Resolution Bool := do
  match ← setRoute uid route with
  | some _ => return true
  | none => ofPile

def discardCard (uid : CardUid) : Resolution Unit := do
  if ← sendAway uid .discard (retireTo uid .discardPile) then report (.discard uid)

def exhaustCard (uid : CardUid) : Resolution Unit := do
  if ← sendAway uid .exhaust (retireTo uid .exhaustPile) then report (.exhaust uid)

def banishCard (uid : CardUid) : Resolution Unit := do
  if ← sendAway uid .banished (remove uid) then report (.banish uid)

/-! ## After a play -/

/-- Where a played card goes: where an effect has sent it, or else where its definition says. -/
def routeOf (rules : Rules) (played : ActiveCard) : Route :=
  played.route.getD
    (if (rules.content.cards.find? played.card.definition).any (·.exhaustsWhenPlayed) then .exhaust
      else .discard)

/-- The play of a card is over: it goes where it has to go. -/
def putAwayPlayed (rules : Rules) (played : ActiveCard) : Resolution Unit := do
  let piles := (← combat).piles
  match routeOf rules played with
  | .discard =>
    setPiles { piles with discardPile := piles.discardPile ++ [played.card] }
    record (.landed played.card.uid .discardPile)
  | .exhaust =>
    setPiles { piles with exhaustPile := piles.exhaustPile ++ [played.card] }
    record (.landed played.card.uid .exhaustPile)
    report (.exhaust played.card.uid)
  | .banished | .elsewhere => return

/-- Ends the innermost play of a card. -/
def endPlay (rules : Rules) (uid : CardUid) : Resolution Unit := do
  match (← combat).takeInPlay? uid with
  | none => return
  | some (played, combat) =>
    modifyCombat fun _ => combat
    putAwayPlayed rules played

/-! ## Selections -/

/-- Asks the player to choose cards, unless there are none or another choice is waiting. -/
def ask (kind : SelectionKind) (candidates : List Card) (min max : Nat) : Resolution Unit := do
  if !candidates.isEmpty && (← combat).pending.isNone then
    let selection := Selection.ofBounds kind candidates min max
    modifyCombat ({ · with pending := some selection })
    report (.selectionRequested kind selection.max)

/-- Brings a card from wherever it is into a pile and reports it. -/
def fetch (rules : Rules) (card : Card) (pile : Pile) : Resolution Unit := do
  match ← bring rules card.uid pile .bottom with
  | some pile => report (.addCard card.uid card.definition pile)
  | none => return

/-- Does with a chosen card what the choice was for. -/
def settleChoice (rules : Rules) (kind : SelectionKind) (card : Card) : Resolution Unit := do
  match kind with
  | .banish => banishCard card.uid
  | .discard => discardCard card.uid
  | .scry => if (← moveTo card.uid .discardPile).isSome then report (.discard card.uid)
  | .discover pile => placeNew rules card pile .bottom
  | .tutor pile => fetch rules card pile

end CardCombat.Resolution
