import CardCombat.Combat.State
import CardCombat.Proofs.Card.Places

/-!
# What a number means when a card was changed

A change that keeps the number of a card keeps its place too. So the number means the changed card
from then on, and every other number means what it meant before.

## Main results

* `Piles.find?_modify` -- among the piles.
* `Combat.card?_modifyCard` -- in the whole combat.
-/

namespace CardCombat

namespace Piles

variable {piles : Piles} {uid : CardUid} {change : Card → Card}

theorem find?_modifyFirst (hc : ∀ card, card.uid = uid → (change card).uid = uid) (u : CardUid)
    (cards : List Card) : (modifyFirst uid change cards).find? (·.uid == u) =
      (cards.find? (·.uid == u)).map fun card => if u = uid then change card else card := by
  induction cards with
  | nil => rfl
  | cons card cards ih =>
      unfold modifyFirst
      split
      case isTrue h =>
        have hid : card.uid = uid := eq_of_beq h
        by_cases hu : uid = u
        · simp [hc card hid, hid, hu]
        · simp [hc card hid, hid, hu, Ne.symm hu]
      case isFalse h =>
        rw [List.find?_cons, List.find?_cons, ih]
        have hother (hsame : card.uid = u) : u ≠ uid := fun hid => h (by simp [hsame, hid])
        split
        case h_1 hsame => simp [hother (eq_of_beq hsame)]
        case h_2 => rfl

theorem locate?_modify (hc : ∀ card, card.uid = uid → (change card).uid = uid) (u : CardUid) :
    (piles.modify uid change).locate? u = piles.locate? u := by
  refine locate?_congr fun pile => ?_
  unfold modify
  split
  case h_1 found _ =>
    by_cases hpile : pile = found
    · rw [hpile, get_set_self, countIn, map_uid_modifyFirst hc, countIn]
    · rw [get_set_ne _ _ hpile]
  case h_2 => rfl

/-- In the piles a changed card is found under its number. -/
theorem find?_modify (hc : ∀ card, card.uid = uid → (change card).uid = uid) (u : CardUid) :
    (piles.modify uid change).find? u =
      (piles.find? u).map fun card => if u = uid then change card else card := by
  unfold find?
  rw [locate?_modify hc]
  cases hu : piles.locate? u with
  | none => rfl
  | some pile =>
      show ((piles.modify uid change).get pile).find? _ = ((piles.get pile).find? _).map _
      unfold modify
      split
      case h_1 found hfound =>
        by_cases hpile : pile = found
        · rw [hpile, get_set_self, find?_modifyFirst hc]
        · have hother : u ≠ uid := fun h => hpile (Option.some.inj (hu.symm.trans (h ▸ hfound)))
          simp [get_set_ne _ _ hpile, hother]
      case h_2 hnone =>
        have hother : u ≠ uid := by
          rintro rfl
          exact absurd (hu.symm.trans hnone) nofun
        simp [hother]

end Piles

namespace Combat

variable {combat : Combat} {uid : CardUid} {change : Card → Card}

theorem find?_modifyFirstInPlay (hc : ∀ card, card.uid = uid → (change card).uid = uid)
    (u : CardUid) (entries : List ActiveCard) :
    (modifyFirstInPlay uid (fun entry => { entry with card := change entry.card })
        entries).find? (·.card.uid == u) =
      (entries.find? (·.card.uid == u)).map fun entry =>
        if u = uid then { entry with card := change entry.card } else entry := by
  induction entries with
  | nil => rfl
  | cons entry entries ih =>
      unfold modifyFirstInPlay
      split
      case isTrue h =>
        have hid : entry.card.uid = uid := eq_of_beq h
        by_cases hu : uid = u
        · simp [hc entry.card hid, hid, hu]
        · simp [hc entry.card hid, hid, hu, Ne.symm hu]
      case isFalse h =>
        rw [List.find?_cons, List.find?_cons, ih]
        have hother (hsame : entry.card.uid = u) : u ≠ uid := fun hid => h (by simp [hsame, hid])
        split
        case h_1 hsame => simp [hother (eq_of_beq hsame)]
        case h_2 => rfl

/-- **A number means the changed card**, if it is the number of the card that was changed, and else
the card that it meant. -/
theorem card?_modifyCard (hc : ∀ card, card.uid = uid → (change card).uid = uid) (u : CardUid) :
    (combat.modifyCard uid change).card? u =
      (combat.card? u).map fun card => if u = uid then change card else card := by
  unfold modifyCard card?
  split
  case isTrue hplay =>
    unfold modifyInPlay findInPlay?
    rw [List.reverse_reverse, find?_modifyFirstInPlay hc]
    cases hu : combat.inPlay.reverse.find? (·.card.uid == u) with
    | some entry => by_cases h : u = uid <;> simp [h]
    | none =>
        have hother : u ≠ uid := by
          rintro rfl
          rw [findInPlay?, hu] at hplay
          exact absurd hplay nofun
        simp [hother]
  case isFalse hplay =>
    show ((combat.findInPlay? u).map _ <|> (combat.piles.modify uid change).find? u) = _
    rw [Piles.find?_modify hc]
    cases hu : combat.findInPlay? u with
    | none => simp
    | some entry =>
        have hother : u ≠ uid := by
          rintro rfl
          exact hplay (by rw [hu]; rfl)
        simp [hother]

end Combat

end CardCombat
