import CardCombat.Resolve.CardMove

/-!
# Effects on cards

The effects that move, change and make cards.
-/

namespace CardCombat.Resolution

variable (rules : Rules)

/-! ## Moving -/

/-- Discards cards that are aimed at, or asks the player which cards of the hand to discard. -/
def discardCards (amount : Value) (target : CardAim) (playerChoice : Bool) (ctx : Context) :
    Resolution Unit := do
  let count ← count amount ctx
  if count != 0 then
    if playerChoice then ask .discard (← combat).piles.hand count count
    else forCards rules target (some count) ctx fun card => discardCard card.uid

def exhaustCards (amount : Value) (target : CardAim) (ctx : Context) : Resolution Unit := do
  let count ← count amount ctx
  if count != 0 then
    forCards rules target (some count) ctx fun card => exhaustCard card.uid

/-- Banishes cards that are aimed at, or asks the player which of them to banish. -/
def banishCards (amount : Value) (target : CardAim) (playerChoice : Bool) (ctx : Context) :
    Resolution Unit := do
  let count ← count amount ctx
  if count != 0 then
    if playerChoice then ask .banish (← cards rules target none ctx) count count
    else forCards rules target (some count) ctx fun card => banishCard card.uid

def putOnDeck (target : CardAim) (placement : Placement) (ctx : Context) : Resolution Unit :=
  forCards rules target none ctx fun card => do
    match ← bring rules card.uid .drawPile placement with
    | some _ => report (.putOnDeck card.uid)
    | none => return

/-- Fetches a card into a pile, the first one that the filter leaves of the draw pile or one that
the player chooses. -/
def tutor (filter : Option CardFilter) (destination : Pile) (playerChoice : Bool) (ctx : Context) :
    Resolution Unit := do
  let target := (filter.map CardAim.filtered).getD .drawPile
  match ← cards rules target none ctx with
  | [] => return
  | card :: others =>
    if playerChoice && !others.isEmpty then
      ask (.tutor destination) (card :: others) 1 1
    else fetch rules card destination

/-! ## Changing -/

/-- Puts a card that was changed in the place of the one that a number means. -/
def putChanged (uid : CardUid) (card : Card) : Resolution Unit := do
  let route := ((← combat).findInPlay? uid).bind (·.route)
  modifyCombat (·.modifyCard uid fun _ => card)
  record (.changed uid route)

/-- Changes every card that is aimed at and still in the combat, if it needs to be changed, and
reports it. -/
def changeCards (target : CardAim) (ctx : Context) (needed : Card → Bool)
    (change : Card → Except Fault Card) (event : CardUid → Event) : Resolution Unit :=
  forCards rules target none ctx fun card => do
    match ((← combat).card? card.uid).filter needed with
    | none => return
    | some found =>
      putChanged card.uid (← change found)
      report (event card.uid)

def retain (target : CardAim) (ctx : Context) : Resolution Unit :=
  changeCards rules target ctx (!·.retained) (fun card => return { card with retained := true })
    .retain

def upgrade (target : CardAim) (ctx : Context) : Resolution Unit :=
  changeCards rules target ctx (!·.upgraded) (fun card => return { card with upgraded := true })
    .upgrade

def modifyCost (amount : Value) (target : CardAim) (ctx : Context) : Resolution Unit := do
  let delta ← Resolution.amount amount ctx
  if delta != 0 then
    changeCards rules target ctx (fun _ => true)
      (fun card => return { card with costModifier := ← Signed.add card.costModifier delta })
      (.costChange · delta)

def setCardFlag (target : CardAim) (flag : CardFlag) (value : Bool) (ctx : Context) :
    Resolution Unit :=
  changeCards rules target ctx (fun _ => true) (fun card => return card.setFlag flag value)
    (.cardFlag · flag.name value)

/-- Makes cards into other cards, drawn among those that can be made at random. -/
def transform (target : CardAim) (theme : Option Theme) (ctx : Context) : Resolution Unit := do
  let pool := rules.content.cards.generated theme
  forCards rules target none ctx fun card => do
    match ← draw (Draw.choose (pool.filter (· != card.definition))) with
    | none => return
    | some definition =>
      match (← combat).card? card.uid with
      | none => return
      | some found =>
        putChanged card.uid { found with definition, upgraded := false, costModifier := 0 }
        report (.transform card.uid definition)

/-! ## Making -/

/-- Makes so many cards of a known definition. -/
def addCards (definition : CardId) (destination : Pile) (number : Value) (upgraded : Bool)
    (placement : Placement) (ctx : Context) : Resolution Unit := do
  if rules.content.cards.contains definition then
    times (← count number ctx) do
      placeNew rules (← makeCard definition upgraded) destination placement

/-- Makes so many cards of a known definition, at random places if they come into the draw pile. -/
def addStatusCards (definition : CardId) (destination : Pile) (number : Value) (ctx : Context) :
    Resolution Unit :=
  addCards rules definition destination number false
    (if destination == .drawPile then .random else .bottom) ctx

def copyCards (target : CardAim) (destination : Pile) (number : Value) (ctx : Context) :
    Resolution Unit := do
  let copies ← count number ctx
  forCards rules target none ctx fun card =>
    times copies do
      placeNew rules (card.withUid (← newUid)) destination .bottom

/-- The same card, playable for nothing if its definition has a fixed cost. -/
def madeFree (card : Card) : Except Fault Card := do
  match rules.content.cards.find? card.definition with
  | none => return card
  | some definition =>
    match definition.costWhen card.upgraded with
    | .fixed cost => return { card with costModifier := ← Signed.neg cost }
    | .x => return card

/-- Makes a card of a definition drawn from a pool; whether there was any. -/
def createFrom (pool : List CardId) (destination : Pile) (free upgraded : Bool) :
    Resolution Bool := do
  match ← draw (Draw.choose pool) with
  | none => return false
  | some definition =>
    let card ← makeCard definition upgraded
    let card ← if free then madeFree rules card else pure card
    placeNew rules card destination .bottom
    return true

/-- Makes so many cards at random. -/
def createRandomCards (theme : Option Theme) (destination : Pile) (number : Value)
    (free upgraded : Bool) (ctx : Context) : Resolution Unit := do
  let pool := rules.content.cards.generated theme
  discard (upTo (← count number ctx) (createFrom rules pool destination free upgraded))

/-- Offers the player cards that are made for the purpose; a single one needs no choice. -/
def discover (theme : Option Theme) (choices : Option Nat) (destination : Pile) (upgraded : Bool) :
    Resolution Unit := do
  let picks ← draw (Draw.sample (rules.content.cards.generated theme)
    (choices.getD rules.config.discoverChoices))
  match ← picks.mapM (makeCard · upgraded) with
  | [card] => placeNew rules card destination .bottom
  | candidates => ask (.discover destination) candidates 1 1

end CardCombat.Resolution
