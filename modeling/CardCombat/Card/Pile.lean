import CardCombat.Card.Basic
import CardCombat.Random.Choice

/-!
# Piles

The four places in which a card can lie. The front of a pile is its top; in the hand it is the
leftmost card. A card is looked for in the order hand, draw pile, discard pile, exhaust pile, and in
each pile from the front, so that even if a number should occur twice there is one card that it
means.
-/

namespace CardCombat

/-- A place in which cards lie. -/
inductive Pile where
  | hand
  | drawPile
  | discardPile
  | exhaustPile
  deriving Repr, DecidableEq

/-- Where in a pile a card is put. -/
inductive Placement where
  | top
  | bottom
  | random
  deriving Repr, DecidableEq

structure Piles where
  hand : List Card := []
  drawPile : List Card := []
  discardPile : List Card := []
  exhaustPile : List Card := []
  deriving Repr, DecidableEq, Inhabited

namespace Pile

/-- All piles, in the order in which they are searched. -/
def all : List Pile := [.hand, .drawPile, .discardPile, .exhaustPile]

def name : Pile → String
  | .hand => "hand"
  | .drawPile => "drawPile"
  | .discardPile => "discardPile"
  | .exhaustPile => "exhaustPile"

end Pile

/-- Unless something else is said a card comes under the others. -/
instance : Inhabited Placement := ⟨.bottom⟩

namespace Placement

def all : List Placement := [.top, .bottom, .random]

def name : Placement → String
  | .top => "top"
  | .bottom => "bottom"
  | .random => "random"

end Placement

namespace Piles

/-! ## Looking -/

def get (piles : Piles) : Pile → List Card
  | .hand => piles.hand
  | .drawPile => piles.drawPile
  | .discardPile => piles.discardPile
  | .exhaustPile => piles.exhaustPile

def set (piles : Piles) (pile : Pile) (cards : List Card) : Piles :=
  match pile with
  | .hand => { piles with hand := cards }
  | .drawPile => { piles with drawPile := cards }
  | .discardPile => { piles with discardPile := cards }
  | .exhaustPile => { piles with exhaustPile := cards }

@[simp] theorem get_set_self (piles : Piles) (pile : Pile) (cards : List Card) :
    (piles.set pile cards).get pile = cards := by
  cases pile <;> rfl

theorem get_set_ne (piles : Piles) {pile other : Pile} (cards : List Card) (h : other ≠ pile) :
    (piles.set pile cards).get other = piles.get other := by
  cases pile <;> cases other <;> first | rfl | exact absurd rfl h

def size (piles : Piles) (pile : Pile) : Nat := (piles.get pile).length

/-- How many cards lie in the four piles. -/
def total (piles : Piles) : Nat := (Pile.all.map piles.size).foldl (· + ·) 0

/-- Whether a card with this number lies in the pile. -/
def contains (piles : Piles) (pile : Pile) (uid : CardUid) : Bool :=
  (piles.get pile).any (·.uid == uid)

/-- The first pile with a card of this number. -/
def locate? (piles : Piles) (uid : CardUid) : Option Pile :=
  Pile.all.find? (piles.contains · uid)

/-- The card that a number means. -/
def find? (piles : Piles) (uid : CardUid) : Option Card := do
  (piles.get (← piles.locate? uid)).find? (·.uid == uid)

/-! ## Changing -/

/-- Changes the first card with this number. -/
def modifyFirst (uid : CardUid) (change : Card → Card) : List Card → List Card
  | [] => []
  | card :: cards =>
    if card.uid == uid then change card :: cards else card :: modifyFirst uid change cards

/-- Changes the card that a number means. -/
def modify (piles : Piles) (uid : CardUid) (change : Card → Card) : Piles :=
  match piles.locate? uid with
  | some pile => piles.set pile (modifyFirst uid change (piles.get pile))
  | none => piles

/-- Takes the first card with this number out of a pile. -/
def takeFrom? (piles : Piles) (pile : Pile) (uid : CardUid) : Option (Card × Piles) := do
  let card ← (piles.get pile).find? (·.uid == uid)
  return (card, piles.set pile ((piles.get pile).eraseP (·.uid == uid)))

/-- Takes the card that a number means out of its pile. -/
def take? (piles : Piles) (uid : CardUid) : Option (Pile × Card × Piles) := do
  let pile ← piles.locate? uid
  let (card, piles) ← piles.takeFrom? pile uid
  return (pile, card, piles)

/-- Takes the top card of the draw pile. -/
def popDraw? (piles : Piles) : Option (Card × Piles) :=
  match piles.drawPile with
  | [] => none
  | card :: rest => some (card, { piles with drawPile := rest })

/-- Puts a card into a pile; a random place is drawn among all gaps of the pile. -/
def put (piles : Piles) (pile : Pile) (card : Card) : Placement → Draw Piles
  | .top => return piles.set pile (card :: piles.get pile)
  | .bottom => return piles.set pile (piles.get pile ++ [card])
  | .random => do
    let slot ← Draw.index (piles.size pile + 1)
    return piles.set pile ((piles.get pile).insertIdx (slot.getD 0) card)

/-- Moves the card that a number means; the pile it came from, nothing if there is no such card. -/
def move (piles : Piles) (uid : CardUid) (pile : Pile) (placement : Placement) :
    Draw (Option Pile × Piles) := do
  match piles.take? uid with
  | none => return (none, piles)
  | some (source, card, piles) => return (some source, ← piles.put pile card placement)

/-- Rearranges a pile at random. -/
def shuffle (piles : Piles) (pile : Pile) : Draw Piles := do
  return piles.set pile (← Draw.shuffle (piles.get pile))

/-- Puts the discard pile under the draw pile and rearranges the whole at random, unless the discard
pile is empty; how many cards were put there. -/
def reshuffle (piles : Piles) : Draw (Nat × Piles) :=
  if piles.discardPile.isEmpty then return (0, piles)
  else do
    let merged :=
      { piles with drawPile := piles.drawPile ++ piles.discardPile, discardPile := [] }
    return (piles.discardPile.length, ← merged.shuffle .drawPile)

end Piles

end CardCombat
